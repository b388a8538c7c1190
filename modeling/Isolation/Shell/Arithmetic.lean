import Isolation.Shell.Script
import Isolation.Text.Decimal

/-!
# Arithmetic of the shell

Expressions over integers of 64 bits, in the operators of C without `++`, `--` and the comma. An
expression is evaluated while it is read, so that of two errors the one further to the left is
complained of. Variables hold numerals, and an assignment changes a variable at once; in an operand
that is passed over nothing is changed and no variable is looked at.
-/

namespace Isolation.Shell.Arithmetic

/-! ## 1. Integers -/

/-- An integer as 64 bits with a sign hold it. -/
def wrapped (n : Int) : Int := n.bmod 18446744073709551616

/-- The bits of an integer as a natural number. -/
def bits (n : Int) : Nat := (n % 18446744073709551616).toNat

/-- The largest integer. -/
def greatest : Int := 9223372036854775807

/-- The least integer. -/
def least : Int := -9223372036854775808

/-- The value of a digit in some base, if it is one. -/
def digit? (base : Nat) (c : Char) : Option Nat :=
  let value :=
    if c.isDigit then c.toNat - '0'.toNat
    else if 'a' ≤ c && c ≤ 'z' then c.toNat - 'a'.toNat + 10
    else if 'A' ≤ c && c ≤ 'Z' then c.toNat - 'A'.toNat + 10
    else base
  if value < base then some value else none

/-- The number that digits at the front of a text denote, and what follows them; `none` if there is
    no digit. -/
def digits (base : Nat) (cs : List Char) : Option (Nat × List Char) :=
  let ds := cs.takeWhile fun c => (digit? base c).isSome
  if ds.isEmpty then none
  else some (ds.foldl (fun n c => base * n + (digit? base c).getD 0) 0, cs.drop ds.length)

/-- A numeral at the front of a text, with its base before it: `0x` for sixteen, `0` for eight. -/
def numeral (cs : List Char) : Option (Nat × List Char) :=
  match cs with
  | '0' :: 'x' :: r | '0' :: 'X' :: r =>
    match digits 16 r with
    | some p => some p
    | none => some (0, cs.drop 1)
  | '0' :: _ => digits 8 cs
  | _ => digits 10 cs

/-- The integer that a whole text denotes, blanks around it being passed over; `none` if it denotes
    none, or one that is too large. -/
def integer? (s : String) : Option Int :=
  let blank (c : Char) : Bool := c == ' ' || (9 ≤ c.toNat && c.toNat ≤ 13)
  let cs := s.toList.dropWhile blank
  let (negative, body) :=
    match cs with
    | '-' :: r => (true, r)
    | '+' :: r => (false, r)
    | r => (false, r)
  match numeral body with
  | some (n, rest) =>
    let value : Int := if negative then -n else n
    if rest.all blank && least ≤ value && value ≤ greatest then some value else none
  | none => if cs.isEmpty then some 0 else none

/-! ## 2. Tokens -/

/-- A token of an expression. -/
inductive Token where
  | number (n : Int)
  | variable (name : String)
  | operator (s : String)
  | unknown
deriving DecidableEq, Repr

/-- The operators, longer ones before those they begin with. -/
def operators : List String :=
  ["<<=", ">>=", "<<", ">>", "<=", ">=", "==", "!=", "&&", "||", "+=", "-=", "*=", "/=", "%=",
    "&=", "^=", "|=", "+", "-", "*", "/", "%", "<", ">", "=", "!", "~", "&", "^", "|", "?", ":",
    "(", ")"]

/-- The tokens of a text. -/
def tokens : Nat → List Char → List Token
  | 0, _ => []
  | _, [] => []
  | n + 1, c :: r =>
    if c = ' ' || c = '\t' || c = '\n' then tokens n r
    else if c.isDigit then
      match numeral (c :: r) with
      | some (v, rest) =>
        .number (if (v : Int) ≤ greatest then v else greatest) :: tokens n rest
      | none => .number 0 :: tokens n r
    else if isNameStart c then
      let name := (c :: r).takeWhile isNameChar
      .variable (String.ofList name) :: tokens n ((c :: r).drop name.length)
    else
      match operators.find? fun op => (Text.after? op.toList (c :: r)).isSome with
      | some op => .operator op :: tokens n ((c :: r).drop op.length)
      | none => [.unknown]

/-! ## 3. Evaluation -/

/-- Why an expression has no value. -/
inductive Defect where
  | form (what : String)
  | noNumber (text : String)
  | unset (name : String)
deriving DecidableEq, Repr

/-- An evaluation under way. -/
structure Progress where
  tokens : List Token
  /-- The values of the variables: none for one that is not set. -/
  value : String → Except Defect (Option String)
  /-- The variables that were assigned to, the last first. -/
  changes : List (String × Int) := []

/-- What evaluates a part of an expression. -/
abbrev Evaluates := StateT Progress (Except Defect)

/-- Complain about the form of the expression. -/
def complain {α : Type} (what : String) : Evaluates α := fun _ => .error (.form what)

/-- The next token. -/
def next : Evaluates (Option Token) := return (← get).tokens.head?

/-- Pass over a token. -/
def pass : Evaluates Unit := modify fun p => { p with tokens := p.tokens.drop 1 }

/-- The value of a variable as an integer. -/
def look (name : String) : Evaluates Int := do
  let p ← get
  match p.changes.lookup name with
  | some n => return n
  | none =>
    match ← (p.value name : Except Defect (Option String)) with
    | none => return 0
    | some text =>
      match integer? text with
      | some n => return n
      | none => throw (.noNumber text)

/-- How strongly an operator binds, if it is one between two operands. -/
def binding? : String → Option Nat
  | "||" => some 1
  | "&&" => some 2
  | "|" => some 3
  | "^" => some 4
  | "&" => some 5
  | "==" | "!=" => some 6
  | "<" | "<=" | ">" | ">=" => some 7
  | "<<" | ">>" => some 8
  | "+" | "-" => some 9
  | "*" | "/" | "%" => some 10
  | _ => none

/-- One for what holds and zero for what does not. -/
def truth (b : Bool) : Int := if b then 1 else 0

/-- The value of an operator. -/
def combine (op : String) (a b : Int) : Evaluates Int :=
  match op with
  | "|" => return wrapped (bits a ||| bits b : Nat)
  | "^" => return wrapped (bits a ^^^ bits b : Nat)
  | "&" => return wrapped (bits a &&& bits b : Nat)
  | "==" => return truth (a == b)
  | "!=" => return truth (a != b)
  | "<" => return truth (decide (a < b))
  | "<=" => return truth (decide (a ≤ b))
  | ">" => return truth (decide (b < a))
  | ">=" => return truth (decide (b ≤ a))
  | "<<" => return wrapped (a * Nat.pow 2 (bits b % 64))
  | ">>" => return a / Nat.pow 2 (bits b % 64)
  | "+" => return wrapped (a + b)
  | "-" => return wrapped (a - b)
  | "*" => return wrapped (a * b)
  | "/" => if b = 0 then complain "division by zero" else return wrapped (a.tdiv b)
  | "%" => if b = 0 then complain "division by zero" else return wrapped (a.tmod b)
  | _ => return b

/-- The operator that an assignment combines the old value by, empty for a plain one. -/
def assigning? : String → Option String
  | "=" => some ""
  | "<<=" => some "<<"
  | ">>=" => some ">>"
  | "+=" => some "+"
  | "-=" => some "-"
  | "*=" => some "*"
  | "/=" => some "/"
  | "%=" => some "%"
  | "&=" => some "&"
  | "^=" => some "^"
  | "|=" => some "|"
  | _ => none

/-- The name and the operator of an assignment at the front of some tokens. -/
def assignment? : List Token → Option (String × String)
  | .variable name :: .operator op :: _ => (assigning? op).map (name, ·)
  | _ => none

mutual

/-- An assignment, or a choice. Where `idle` is set, the value is not needed. -/
def assignment : Nat → (idle : Bool) → Evaluates Int
  | 0, _ => complain "nested too deep"
  | n + 1, idle => do
    match assignment? (← get).tokens with
    | none => choice n idle
    | some (name, op) =>
      pass
      pass
      let right ← assignment n idle
      if idle then return right
      else
        let value ← if op = "" then pure right else combine op (← look name) right
        modify fun p => { p with changes := (name, value) :: p.changes }
        return value

/-- A choice between two values, or an operand. -/
def choice : Nat → (idle : Bool) → Evaluates Int
  | 0, _ => complain "nested too deep"
  | n + 1, idle => do
    let a ← climb n 1 idle
    if (← next) = some (.operator "?") then
      pass
      let b ← assignment n (idle || a == 0)
      if (← next) = some (.operator ":") then
        pass
        let c ← choice n (idle || a != 0)
        return if a != 0 then b else c
      else complain "expecting ':'"
    else return a

/-- Operands joined by operators that bind at least so strongly. -/
def climb : Nat → Nat → (idle : Bool) → Evaluates Int
  | 0, _, _ => complain "nested too deep"
  | n + 1, least, idle => do climbRest n least idle (← primary n idle)

/-- What operators that bind at least so strongly join to an operand. -/
def climbRest : Nat → Nat → (idle : Bool) → Int → Evaluates Int
  | 0, _, _, _ => complain "nested too deep"
  | n + 1, least, idle, a => do
    match ← next with
    | some (.operator op) =>
      match binding? op with
      | none => return a
      | some strength =>
        if strength < least then return a
        else
          pass
          if op = "&&" then
            let b ← climb n (strength + 1) (idle || a == 0)
            climbRest n least idle (truth (a != 0 && b != 0))
          else if op = "||" then
            let b ← climb n (strength + 1) (idle || a != 0)
            climbRest n least idle (truth (a != 0 || b != 0))
          else
            let b ← climb n (strength + 1) idle
            climbRest n least idle (← if idle then pure b else combine op a b)
    | _ => return a

/-- An operand that is not joined by operators. -/
def primary : Nat → (idle : Bool) → Evaluates Int
  | 0, _ => complain "nested too deep"
  | n + 1, idle => do
    match ← next with
    | some (.number v) =>
      pass
      return v
    | some (.variable name) =>
      pass
      if idle then return 0 else look name
    | some (.operator "(") =>
      pass
      let v ← assignment n idle
      if (← next) = some (.operator ")") then
        pass
        return v
      else complain "expecting ')'"
    | some (.operator "+") =>
      pass
      primary n idle
    | some (.operator "-") =>
      pass
      return wrapped (-(← primary n idle))
    | some (.operator "!") =>
      pass
      return truth ((← primary n idle) == 0)
    | some (.operator "~") =>
      pass
      return -(← primary n idle) - 1
    | _ => complain "expecting primary"

end

/-- The value of an expression, and the variables that it changes, in order. -/
def evaluate (value : String → Except Defect (Option String)) (text : String) :
    Except Defect (Int × List (String × Int)) := do
  let ts := tokens (text.length + 1) text.toList
  let (v, p) ← (assignment (4 * ts.length + 8) false).run ⟨ts, value, []⟩
  if p.tokens.isEmpty then return (v, p.changes.reverse) else throw (.form "expecting EOF")

/-- The wording of a defect of an expression. -/
def Defect.message (text : String) : Defect → String
  | form what => "arithmetic expression: " ++ what ++ ": \"" ++ text ++ "\""
  | noNumber number => "Illegal number: " ++ number
  | unset name => name ++ ": parameter not set"

end Isolation.Shell.Arithmetic
