import Isolation.Programs.Awk.Script
import Isolation.Programs.Printf
import Isolation.Regex.Reading

/-!
# Values of `awk`

A value is a number, a text, or a text that was read and looks like a number. **Two values are
compared as numbers if both are numbers or look like some**, and as texts otherwise.
-/

namespace Isolation.Programs.Awk

open Isolation.Text Isolation.Regex

/-- A value. -/
inductive Value where
  /-- What was never set: the empty text, and zero. -/
  | unset
  | number (x : Float)
  | text (s : String)
  /-- A text that was read and looks like a number. -/
  | like (s : String) (x : Float)
deriving Inhabited

/-! ## 1. Numbers -/

/-- The sign and the magnitude of a number. -/
def partsOf (x : Float) : Bool × Floating.Value :=
  let bits := x.toBits.toNat
  let negative := Nat.pow 2 63 ≤ bits
  let exponent := bits / Nat.pow 2 52 % 2048
  let fraction := bits % Nat.pow 2 52
  let value : Floating.Value :=
    if exponent = 2047 then if fraction = 0 then .infinite else .notANumber
    else if exponent = 0 then .finite ⟨fraction, -1074⟩
    else .finite ⟨fraction + Nat.pow 2 52, (exponent : Int) - 1075⟩
  (negative, value)

/-- The number of a sign and a magnitude. -/
def ofParts (negative : Bool) (v : Floating.Value) : Float :=
  let x : Float :=
    match v with
    | .finite m => Float.scaleB (Float.ofNat m.mantissa) m.exponent
    | .infinite => 1 / 0
    | .notANumber => 0 / 0
  if negative then -x else x

/-- The number at the front of a text; zero if there is none. -/
def numberOf (s : String) : Float :=
  match Floating.read? Floating.double s.toList with
  | some (negative, v, _) => ofParts negative v
  | none => 0

/-- The number that a text looks like. -/
def numberLike? (s : String) : Option Float :=
  let body := s.toList.dropWhile isSpace
  if !body.all (fun c => c.isDigit || isSpace c || "+-.eE".toList.contains c) then none
  else
    match Floating.read? Floating.double body with
    | some (negative, v, rest) => if rest.all isSpace then some (ofParts negative v) else none
    | none => none

/-- A text that was read. -/
def readValue (s : String) : Value :=
  match numberLike? s with
  | some x => .like s x
  | none => .text s

/-- The integer part of a number; what is beyond every integer becomes one of 64 bits. -/
def integerPart (x : Float) : Int :=
  let (negative, v) := partsOf x
  let size : Nat :=
    match v with
    | .finite m =>
      let (n, d) := m.quotient
      n / d
    | .infinite => Nat.pow 2 63
    | .notANumber => Nat.pow 2 63
  if negative then -(size : Int) else size

/-- Whether a number has nothing behind its point. -/
def isWhole (x : Float) : Bool :=
  match (partsOf x).2 with
  | .finite m =>
    let (n, d) := m.quotient
    n % d = 0
  | _ => false

/-- The integers of 64 bits nearest to a number. -/
def clamped (n : Int) : Int :=
  max (-9223372036854775808) (min n 9223372036854775807)

/-- An integer as a number. -/
def ofInt (n : Int) : Float := if n < 0 then -(Float.ofNat n.natAbs) else Float.ofNat n.natAbs

/-! ## 2. Formats -/

/-- What a format makes of some values, or what is wrong: a directive that there is not, by its
    number, or a value that is missing. -/
inductive Formatted where
  | text (s : String)
  /-- What was made before a value was missing. -/
  | tooFew (before : String)
  | improper (number : Nat)

/-- The value of a number as a natural number of 64 bits. -/
def unsignedOf (x : Float) : Nat :=
  let n := integerPart x
  (n % 18446744073709551616).toNat

/-- The text of a value under a conversion. -/
def converted (textOf : Value → String) (numberOf : Value → Float) (f : Printf.Field)
    (conversion : Char) (v : Value) : Option String :=
  if conversion == 'd' || conversion == 'i' then
    let x := numberOf v
    match (partsOf x).2 with
    | .finite _ => some (f.signed (clamped (integerPart x)))
    | w => some (f.floating 'f' (partsOf x).1 w)
  else if ['o', 'x', 'X', 'u'].contains conversion then
    some (f.unsigned conversion (unsignedOf (numberOf v)))
  else if ['e', 'E', 'f', 'F', 'g', 'G'].contains conversion then
    let (negative, w) := partsOf (numberOf v)
    some (f.floating conversion negative w)
  else if conversion == 'c' then
    let c : String :=
      match v with
      | .number x => String.singleton (Char.ofNat (unsignedOf x % 256))
      | .like _ x => String.singleton (Char.ofNat (unsignedOf x % 256))
      | v => String.singleton ((textOf v).toList.headD (Char.ofNat 0))
    some ({ f with precision := none : Printf.Field }.text c)
  else if conversion == 's' then some (f.text (textOf v))
  else none

/-- A number of a directive: digits, or a star for a value. -/
def measure (numberOf : Value → Float) (cs : List Char) (vs : List Value) :
    Option Int × List Char × List Value :=
  match cs with
  | '*' :: r => (some ((vs.head?.map fun v => integerPart (numberOf v)).getD 0), r, vs.drop 1)
  | cs =>
    let ds := cs.takeWhile Char.isDigit
    if ds.isEmpty then (none, cs, vs)
    else
      (some ((ds.foldl (fun n c => 10 * n + (c.toNat - '0'.toNat)) 0 : Nat) : Int),
        cs.drop ds.length, vs)

/-- Use a format. -/
def formatted (textOf : Value → String) (numberOf : Value → Float) :
    Nat → (number : Nat) → (done : List String) → List Char → List Value → Formatted
  | 0, _, done, _, _ => .text (String.join done.reverse)
  | _, _, done, [], _ => .text (String.join done.reverse)
  | n + 1, k, done, '%' :: '%' :: r, vs => formatted textOf numberOf n k ("%" :: done) r vs
  | n + 1, k, done, '%' :: r, vs =>
    let (f, r) := Printf.flags false r {}
    let (width, r, vs) := measure numberOf r vs
    let f := match width with
      | some w => { f with width := w.natAbs, left := f.left || w < 0 }
      | none => f
    let (f, r, vs) :=
      match r with
      | '.' :: r =>
        let (precision, r, vs) := measure numberOf r vs
        ({ f with precision := some (precision.getD 0).toNat }, r, vs)
      | r => (f, r, vs)
    let r := r.dropWhile fun c => c == 'l' || c == 'h'
    match r, vs with
    | [], _ => .text (String.join ("%" :: done).reverse)
    | c :: _, [] =>
      if "diouxXeEfFgGcs".toList.contains c then .tooFew (String.join done.reverse)
      else .improper k
    | c :: r, v :: vs =>
      match converted textOf numberOf f c v with
      | some s => formatted textOf numberOf n (k + 1) (s :: done) r vs
      | none => .improper k
  | n + 1, k, done, c :: r, vs =>
    formatted textOf numberOf n k (String.singleton c :: done) r vs

/-- The text of a number in a format. -/
def numberText (format : String) (x : Float) : String :=
  if isWhole x && (integerPart x).natAbs < Nat.pow 2 63 then toString (integerPart x)
  else
    let (negative, v) := partsOf x
    match v with
    | .infinite => if negative then "-inf" else "inf"
    | .notANumber => if negative then "-nan" else "nan"
    | .finite m =>
      if format = "%.6g" then (if negative then "-" else "") ++ Floating.general 6 false false m
      else
        let written := formatted (fun _ => "") (fun _ => x) (format.length + 1) 1 [] format.toList
        match written [.number x] with
        | .text s => s
        | .tooFew s => s
        | .improper _ => ""

namespace Value

/-- The number of a value. -/
def number' : Value → Float
  | unset => 0
  | number x => x
  | text s => numberOf s
  | like _ x => x

/-- The text of a value, numbers in some format. -/
def string (format : String) : Value → String
  | unset => ""
  | number x => numberText format x
  | text s => s
  | like s _ => s

/-- Whether a value counts as true. -/
def holds : Value → Bool
  | unset => false
  | number x => x != 0
  | text s => s != ""
  | like _ x => x != 0

/-- Whether a value is compared as a number. -/
def isNumeric : Value → Bool
  | text _ => false
  | _ => true

end Value

/-- Compare two values by an operator. -/
def compared (format op : String) (a b : Value) : Bool :=
  if a.isNumeric && b.isNumeric then
    let x := a.number'
    let y := b.number'
    match op with
    | "<" => x < y
    | "<=" => x <= y
    | "==" => x == y
    | "!=" => x != y
    | ">" => y < x
    | _ => y <= x
  else
    let x := a.string format
    let y := b.string format
    match op with
    | "<" => x < y
    | "<=" => !(y < x)
    | "==" => x == y
    | "!=" => x != y
    | ">" => y < x
    | _ => !(x < y)

/-- What an operator makes of two numbers. -/
def reckoned (op : Char) (x y : Float) : Float :=
  match op with
  | '+' => x + y
  | '-' => x - y
  | '*' => x * y
  | '/' => x / y
  | '%' =>
    if y == 0 then -(0 / 0)
    else
      match (partsOf x).2, (partsOf y).2 with
      | .finite a, .finite b =>
        -- The remainder is exact.
        let low := min a.exponent b.exponent
        let m := a.mantissa * Nat.pow 2 (a.exponent - low).toNat
        let n := b.mantissa * Nat.pow 2 (b.exponent - low).toNat
        ofParts (partsOf x).1 (if n = 0 then .notANumber else Floating.nearest Floating.double
          (if low < 0 then m % n else m % n * Nat.pow 2 low.natAbs)
          (if low < 0 then Nat.pow 2 low.natAbs else 1))
      | .finite _, .infinite => x
      | _, _ => 0 / 0
  | _ => Float.pow x y

/-! ## 3. Patterns -/

/-- The characters between brackets, their escapes being read, and what follows the brackets. -/
def bracketBody : Nat → List Char → List Char → Option (List Char × List Char)
  | 0, _, _ => none
  | _, [], _ => none
  | n + 1, '\\' :: r, acc =>
    match escape? r with
    | some (c, rest) => bracketBody n rest (c :: acc)
    | none =>
      match r with
      | c :: rest => bracketBody n rest (c :: acc)
      | [] => none
  | n + 1, '[' :: ':' :: r, acc =>
    match cut? [':', ']'] r with
    | some (name, rest) =>
      bracketBody n rest ((']' :: ':' :: name.reverse) ++ ':' :: '[' :: acc)
    | none => bracketBody n (':' :: r) ('[' :: acc)
  | n + 1, c :: r, acc =>
    if c = ']' && !acc.isEmpty then some (acc.reverse, r) else bracketBody n r (c :: acc)

/-- Characters between brackets, arranged so that none of them has a meaning by its place. -/
def arranged (cs : List Char) : List Char :=
  if cs.contains ']' && !(contains (String.ofList cs) ":]") then ']' :: cs.filter (· != ']') else cs

/-- The text of an extended regular expression that means what a pattern means: escapes are read,
    and braces stand for themselves. -/
def plainPattern : Nat → List Char → List Char
  | 0, cs => cs
  | _, [] => []
  | n + 1, '\\' :: r =>
    match r with
    | [] => ['\\', '\\']
    | c :: rest =>
      if c = '/' || c = '"' then c :: plainPattern n rest
      else if "tnrfvab01234567".toList.contains c then
        match escape? r with
        | some (d, rest) => if d.isAlphanum || isSpace d then d :: plainPattern n rest
          else '\\' :: d :: plainPattern n rest
        | none => c :: plainPattern n rest
      else if c.isAlphanum then c :: plainPattern n rest
      else '\\' :: c :: plainPattern n rest
  | n + 1, '[' :: r =>
    let negated := r.head? == some '^'
    let inner := if negated then r.drop 1 else r
    match bracketBody (inner.length + 1) inner [] with
    | none => '\\' :: '[' :: plainPattern n r
    | some (body, rest) =>
      '[' :: (if negated then ['^'] else []) ++ arranged body ++ ']' :: plainPattern n rest
  | n + 1, c :: r =>
    if c = '\x7b' || c = '\x7d' then '\\' :: c :: plainPattern n r else c :: plainPattern n r

/-- The pattern of a text. -/
def patternOf (source : String) : Except Regex.Defect Pattern :=
  let text := String.ofList (plainPattern (source.length + 1) source.toList)
  (Pattern.read { extended := true, lenient := true } text).map Prod.fst

/-! ## 4. Fields -/

/-- The pieces of a text between places where a pattern is found; what is empty is not found. -/
def splitBy (s : Subject) (p : Pattern) : Nat → (start from_ : Nat) → List String
  | 0, start, _ => [String.ofList (s.between start s.size)]
  | n + 1, start, from_ =>
    match find? s p from_ with
    | none => [String.ofList (s.between start s.size)]
    | some f =>
      if f.stop = f.start then
        if s.size ≤ f.start then [String.ofList (s.between start s.size)]
        else splitBy s p n start (f.start + 1)
      else String.ofList (s.between start f.start) :: splitBy s p n f.stop f.stop

/-- The fields of a text. A blank as separator stands for rows of white space, any other character
    for itself, and a longer text for a pattern. -/
def fieldsOf (separator text : String) : List String :=
  if text = "" then []
  else
    match separator.toList with
    | [' '] => ((fields isSpace text.toList).filter (!·.isEmpty)).map String.ofList
    | [] => text.toList.map String.singleton
    | [c] => (fields (· == c) text.toList).map String.ofList
    | _ =>
      match patternOf separator with
      | .ok p =>
        let s := Subject.ofText text
        splitBy s p (s.size + 1) 0 0
      | .error _ => [text]

/-! ## 5. Substitution -/

/-- The text that takes the place of what was found: an ampersand stands for it, and a backslash
    takes that meaning away. -/
def substitute (found : List Char) : List Char → List Char
  | '\\' :: '&' :: r => '&' :: substitute found r
  | '\\' :: '\\' :: r => '\\' :: substitute found r
  | '&' :: r => found ++ substitute found r
  | c :: r => c :: substitute found r
  | [] => []

/-- A text with what is found replaced, and how often that was done. -/
def replaced (s : Subject) (p : Pattern) (new : List Char) (all : Bool) :
    Nat → (start : Nat) → (before : Option Nat) → List Char × Nat
  | 0, start, _ => (s.between start s.size, 0)
  | n + 1, start, before =>
    match find? s p start with
    | none => (s.between start s.size, 0)
    | some f =>
      let lead := s.between start f.start
      let empty := f.stop = f.start
      if empty && before == some f.start then
        if s.size ≤ f.start then (lead, 0)
        else
          let (rest, k) := replaced s p new all n (f.start + 1) none
          (lead ++ s.between f.start (f.start + 1) ++ rest, k)
      else
        let body := lead ++ substitute (s.between f.start f.stop) new
        if !all then (body ++ s.between f.stop s.size, 1)
        else if empty then
          if s.size ≤ f.start then (body, 1)
          else
            let (rest, k) := replaced s p new all n (f.start + 1) none
            (body ++ s.between f.start (f.start + 1) ++ rest, k + 1)
        else
          let (rest, k) := replaced s p new all n f.stop (some f.stop)
          (body ++ rest, k + 1)

end Isolation.Programs.Awk
