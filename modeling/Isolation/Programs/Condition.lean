import Isolation.Programs.Options

/-!
# Conditions

The conditions that `test` decides, on texts, integers and files. There are two manners of reading
them. The shell reads a condition as far as it can and complains of what is left; the program goes
by the number of arguments as long as there are at most four.

Files have no times here, so that no file is newer than another that is there.
-/

namespace Isolation.Programs.Condition

open Machine Files

/-- Whether a path leads to something that passes a test. -/
def leads (v : Volume) (path : String) (test : Tree → Bool) : Bool :=
  match v.open? (Text.textOfOctets path) with
  | .ok t => test t
  | .error _ => false

/-- Whether a file may be run. -/
def mayRun : Tree → Bool
  | .file _ executable => executable
  | .directory _ | .program _ => true
  | .link _ | .device _ => false

/-- Whether something holds anything. -/
def isFilled : Tree → Bool
  | .file bytes _ => bytes.size != 0
  | .directory _ | .program _ => true
  | .link _ | .device _ => false

/-- The conditions on one operand, other than that of a terminal. -/
def unary? (v : Volume) (op : String) (a : String) : Option Bool :=
  let isLink : Bool :=
    match v.placeOf (Text.textOfOctets a) false with
    | .ok (_, some (.link _)) => true
    | _ => false
  let isA (test : Tree → Bool) : Option Bool := some (leads v a test)
  match op with
  | "-n" => some (a != "")
  | "-z" => some (a = "")
  | "-e" | "-r" | "-w" | "-O" | "-G" => isA fun _ => true
  | "-f" => isA fun t => match t with
    | .file .. | .program _ => true
    | _ => false
  | "-d" => isA fun t => match t with
    | .directory _ => true
    | _ => false
  | "-c" => isA fun t => match t with
    | .device _ => true
    | _ => false
  | "-x" => isA mayRun
  | "-s" => isA isFilled
  | "-h" | "-L" => some isLink
  | "-t" | "-b" | "-p" | "-u" | "-g" | "-k" | "-S" => some false
  | _ => none

/-- The operators on integers. -/
def compare? : String → Option (Int → Int → Bool)
  | "-eq" => some fun a b => a == b
  | "-ne" => some fun a b => a != b
  | "-gt" => some fun a b => decide (b < a)
  | "-ge" => some fun a b => decide (b ≤ a)
  | "-lt" => some fun a b => decide (a < b)
  | "-le" => some fun a b => decide (a ≤ b)
  | _ => none

/-- Whether two paths lead to the same place. -/
def sameFile (v : Volume) (a b : String) : Bool :=
  match v.resolve (Text.textOfOctets a), v.resolve (Text.textOfOctets b) with
  | .ok p, .ok q => p == q && (v.root.at? p).isSome
  | _, _ => false

/-- The conditions on two operands, other than those on integers. -/
def binary? (v : Volume) (op a b : String) : Option Bool :=
  let there (p : String) : Bool := leads v p fun _ => true
  match op with
  | "=" | "==" => some (a = b)
  | "!=" => some (a != b)
  | "<" => some (decide (a < b))
  | ">" => some (decide (b < a))
  | "-nt" => some (there a && !there b)
  | "-ot" => some (there b && !there a)
  | "-ef" => some (sameFile v a b)
  | _ => none

/-- The operators on one operand. -/
def unaries : List String :=
  ["-n", "-z", "-e", "-r", "-w", "-O", "-G", "-f", "-d", "-c", "-x", "-s", "-h", "-L", "-t", "-b",
    "-p", "-u", "-g", "-k", "-S"]

/-- The operators on two operands. -/
def binaries : List String :=
  ["=", "!=", "<", ">", "-eq", "-ne", "-gt", "-ge", "-lt", "-le", "-nt", "-ot", "-ef"]

/-- The decimal integer that a text denotes, blanks around it being passed over. -/
def integer? (s : String) : Option Int :=
  let cs := s.toList.dropWhile Text.isSpace
  let (negative, body) :=
    match cs with
    | '-' :: r => (true, r)
    | '+' :: r => (false, r)
    | r => (false, r)
  let ds := body.takeWhile Char.isDigit
  if ds.isEmpty || !(body.drop ds.length).all Text.isSpace then none
  else
    let n : Nat := ds.foldl (fun n c => 10 * n + (c.toNat - '0'.toNat)) 0
    some (if negative then -(n : Int) else n)

/-! ## 1. The manner of the shell -/

namespace Shell

/-- What is left of a condition, the word that is looked at being the first. -/
abbrev Reads := StateT (List String) (Except String)

/-- What a word is for the one that reads it. -/
inductive Kind where
  | nothing
  | operand
  | unary (op : String)
  | binary (op : String)
  | not
  | and
  | or
  | open
  | close
deriving DecidableEq, Repr

/-- The operator that a word may be. -/
def operator? (s : String) : Option Kind :=
  if s = "!" then some .not
  else if s = "-a" then some .and
  else if s = "-o" then some .or
  else if s = "(" then some .open
  else if s = ")" then some .close
  else if unaries.contains s then some (.unary s)
  else if binaries.contains s then some (.binary s)
  else none

/-- Whether the word at the front, an operator on one operand, is an operand itself. -/
def isOperand : List String → Bool
  | _ :: s :: _ :: _ =>
    match operator? s with
    | some (.binary _) => true
    | _ => false
  | _ :: _ :: _ => false
  | _ => true

/-- What the word at the front is. -/
def kind : List String → Kind
  | [] => .nothing
  | s :: r =>
    match operator? s with
    | none => .operand
    | some (.unary op) => if isOperand (s :: r) then .operand else .unary op
    | some .open => if r.isEmpty then .operand else .open
    | some k => k

/-- Go on by a word, and say what stands there. -/
def advance : Reads Kind := do
  modify (·.drop 1)
  return kind (← get)

/-- The integer that an operand denotes. -/
def number (s : String) : Reads Int :=
  match integer? s with
  | some n =>
    if n.natAbs < 9223372036854775808 then return n else throw ("Illegal number: " ++ s)
  | none => throw ("Illegal number: " ++ s)

/-- Decide a condition on two operands, the first of which stands at the front. -/
def decideBinary (v : Volume) : Reads Bool := do
  match ← get with
  | a :: op :: b :: r =>
    set (b :: r)
    match compare? op with
    | some holds => return holds (← number a) (← number b)
    | none => return (binary? v op a b).getD false
  | _ :: op :: _ => throw (op ++ ": argument expected")
  | _ => return false

mutual

/-- Alternatives. -/
def disjunction (v : Volume) : Nat → Kind → Reads Bool
  | 0, _ => throw "nested too deep"
  | n + 1, k => do
    let a ← conjunction v n k
    if kind ((← get).drop 1) = .or then
      modify (·.drop 1)
      let b ← disjunction v n (← advance)
      return a || b
    else return a

/-- Conditions that have to hold together. -/
def conjunction (v : Volume) : Nat → Kind → Reads Bool
  | 0, _ => throw "nested too deep"
  | n + 1, k => do
    let a ← negation v n k
    if kind ((← get).drop 1) = .and then
      modify (·.drop 1)
      let b ← conjunction v n (← advance)
      return a && b
    else return a

/-- A condition that may be negated. -/
def negation (v : Volume) : Nat → Kind → Reads Bool
  | 0, _ => throw "nested too deep"
  | n + 1, k => do
    if k = .not then return !(← negation v n (← advance)) else primary v n k

/-- A condition without connectives, or one in parentheses. -/
def primary (v : Volume) : Nat → Kind → Reads Bool
  | 0, _ => throw "nested too deep"
  | n + 1, k => do
    match k with
    | .nothing => return false
    | .open =>
      match ← advance with
      | .close => return false
      | k =>
        let a ← disjunction v n k
        if (← advance) = .close then return a else throw "closing paren expected"
    | .unary op =>
      modify (·.drop 1)
      match ← get with
      | [] => throw (op ++ ": argument expected")
      | a :: _ =>
        if op = "-t" then
          let _ ← number a
          return false
        else return (unary? v op a).getD false
    | _ =>
      match kind ((← get).drop 1) with
      | .binary _ => decideBinary v
      | _ => return ((← get).headD "") != ""

end

/-- Whether a condition holds, or why that cannot be said. -/
def holds (v : Volume) : (negated : Bool) → List String → Except String Bool
  | _, [] => .ok false
  | negated, args => do
    let whole (binary : Bool) (args : List String) : Except String Bool := do
      let n := 8 * args.length + 16
      let (r, rest) ← (disjunction v n (if binary then .operand else kind args)).run args
      match rest with
      | op :: _ :: _ => .error (op ++ ": unexpected operator")
      | _ => return r != negated
    match args with
    | "!" :: a :: b :: r =>
      let isBinary := match operator? a with
        | some (.binary _) => r.isEmpty
        | _ => false
      if isBinary then whole true args
      else if r.length ≤ 1 then holds v (!negated) (a :: b :: r)
      else whole false args
    | [a, op, b] =>
      match operator? op with
      | some (.binary _) => whole true args
      | _ => if a = "(" && b = ")" then whole false [op] else whole false args
    | [a, op, c, b] => if a = "(" && b = ")" then whole false [op, c] else whole false args
    | args => whole false args

end Shell

/-! ## 2. The manner of the program -/

/-- The integer that an operand denotes, for the program. -/
def number (s : String) : Except String Int :=
  match integer? s with
  | some n => .ok n
  | none => .error ("invalid integer " ++ quoted s)

/-- Decide a condition on two operands. -/
def decideBinary (v : Volume) (a op b : String) : Except String Bool := do
  match compare? op with
  | some holds => return holds (← number a) (← number b)
  | none => return (binary? v op a b).getD false

/-- Whether a word is an operator on two operands. -/
def isBinary (s : String) : Bool := binaries.contains s || s = "=="

/-- What a part of a condition is made of. -/
inductive Level where
  | term
  | conjunction
  | disjunction
deriving DecidableEq, Repr

/-- Decide a part of a condition, and give back the words behind it. -/
def expression (v : Volume) : Nat → Level → List String → Except String (Bool × List String)
  | 0, _, _ => .error "nested too deep"
  | n + 1, level, args =>
    match level with
    | .disjunction => do
      let (a, rest) ← expression v n .conjunction args
      match rest with
      | "-o" :: rest =>
        let (b, rest) ← expression v n .disjunction rest
        return (a || b, rest)
      | rest => return (a, rest)
    | .conjunction => do
      let (a, rest) ← expression v n .term args
      match rest with
      | "-a" :: rest =>
        let (b, rest) ← expression v n .conjunction rest
        return (a && b, rest)
      | rest => return (a, rest)
    | .term =>
      match args with
      | "!" :: rest => do
        let (a, rest) ← expression v n .term rest
        return (!a, rest)
      | "(" :: rest => do
        match ← expression v n .disjunction rest with
        | (a, ")" :: rest) => return (a, rest)
        | (_, []) => .error "')' expected"
        | (_, s :: _) => .error ("')' expected, found " ++ s)
      | a :: op :: b :: rest => do
        if isBinary op then return (← decideBinary v a op b, rest)
        else
          match unary? v a op with
          | some r => return (r, b :: rest)
          | none => return (a != "", op :: b :: rest)
      | [a, b] =>
        match unary? v a b with
        | some r => .ok (r, [])
        | none => .ok (a != "", [b])
      | [a] => .ok (a != "", [])
      | [] => .error "missing argument"

/-- Whether a condition holds, by the number of its words. -/
def holds (v : Volume) : List String → Except String Bool
  | [] => .ok false
  | [a] => .ok (a != "")
  | ["!", a] => .ok (a = "")
  | [a, b] =>
    match unary? v a b with
    | some r => .ok r
    | none =>
      if Text.startsWith a "-" && a.length = 2 then .error (quoted a ++ ": unary operator expected")
      else .error ("missing argument after " ++ quoted b)
  | [a, op, b] => do
    if isBinary op then decideBinary v a op b
    else if a = "!" then return !(← holds v [op, b])
    else if a = "(" && b = ")" then holds v [op]
    else if op = "-a" then return a != "" && b != ""
    else if op = "-o" then return a != "" || b != ""
    else .error (quoted op ++ ": binary operator expected")
  | args => do
    match args with
    | ["!", a, op, b] => return !(← holds v [a, op, b])
    | ["(", a, b, ")"] => holds v [a, b]
    | args =>
      match ← expression v (8 * args.length + 8) .disjunction args with
      | (r, []) => return r
      | (_, s :: _) => .error ("extra argument " ++ quoted s)

/-- The program `test`; under the name `[` it asks for a closing bracket. -/
def test (bracket : Bool) : Program := fun args => do
  let decided (args : List String) : Act Nat := do
    match holds (← Act.volume) args with
    | .ok r => return if r then 0 else 1
    | .error e => Act.fail 2 e
  if bracket then
    if args.getLast? = some "]" then decided args.dropLast else Act.fail 2 "missing ']'"
  else decided args

end Isolation.Programs.Condition
