import Isolation.Regex.Pattern

/-!
# Reading regular expressions

Regular expressions are written in two ways: in the basic one, groups, intervals and choices need a
backslash, and in the extended one the same signs without a backslash have these meanings. A
`Dialect` also says whether signs that have nothing to repeat are complained of.

The reader takes `depth`, which bounds how deep groups nest; the length of the text is enough.
-/

namespace Isolation.Regex

/-- Why a text is no regular expression. -/
inductive Defect where
  | openGroup
  | closedGroup
  | openBracket
  | openInterval
  | interval
  | nothingToRepeat
  | reference
  | backslash
  | range
  | className
  /-- The name of a class stands where a bracket expression should. -/
  | bareClass
  /-- Nothing follows the bracket that opens an expression. -/
  | lonelyBracket
  | tooBig
deriving DecidableEq, Repr

/-- The wording of a defect. -/
def Defect.message : Defect → String
  | openGroup => "Unmatched ( or \\("
  | closedGroup => "Unmatched ) or \\)"
  | openBracket => "Unmatched [, [^, [:, [., or [="
  | openInterval => "Unmatched \\\x7b"
  | interval => "Invalid content of \\\x7b\\\x7d"
  | nothingToRepeat => "Invalid preceding regular expression"
  | reference => "Invalid back reference"
  | backslash => "Trailing backslash"
  | range => "Invalid range end"
  | className => "Invalid character class name"
  | bareClass => "character class syntax is [[:space:]], not [:space:]"
  | lonelyBracket => "Invalid regular expression"
  | tooBig => "Regular expression too big"

/-- How regular expressions are written. -/
structure Dialect where
  extended : Bool
  /-- Signs that have nothing to repeat are passed over or stand for themselves. -/
  lenient : Bool := false

/-- A reading under way. -/
structure Reading where
  rest : List Char
  /-- The number of groups that were opened. -/
  opened : Nat := 0
  closed : List Nat := []
  /-- The signs without anything to repeat that were passed over, the last first. -/
  skipped : List String := []

/-- What reads a part of a regular expression. -/
abbrev Reads := StateT Reading (Except Defect)

/-- Complain of a defect. -/
def defect {α : Type} (d : Defect) : Reads α := fun _ => .error d

/-- Pass over some characters. -/
def pass (n : Nat) : Reads Unit := modify fun s => { s with rest := s.rest.drop n }

/-- A sign with a meaning of its own. -/
inductive Sign where
  | open
  | close
  | bar
  | star
  | plus
  | question
  | brace
deriving DecidableEq, Repr

/-- The sign of a character, of those that need a backslash in basic expressions only. -/
def signOf? : Char → Option Sign
  | '(' => some .open
  | ')' => some .close
  | '|' => some .bar
  | '+' => some .plus
  | '?' => some .question
  | '\x7b' => some .brace
  | _ => none

/-- The sign at the front of a text, and the number of its characters. -/
def sign? (d : Dialect) : List Char → Option (Sign × Nat)
  | '*' :: _ => some (.star, 1)
  | '\\' :: c :: _ => if d.extended then none else (signOf? c).map (·, 2)
  | c :: _ => if d.extended then (signOf? c).map (·, 1) else none
  | [] => none

/-- What stands between two marks within a bracket expression, and what follows. -/
def enclosed (mark : Char) : List Char → Option (List Char × List Char)
  | [] => none
  | c :: r =>
    if c = mark && r.head? == some ']' then some ([], r.drop 1)
    else (enclosed mark r).map fun p => (c :: p.1, p.2)

/-- A character of a bracket expression that may begin or end a range, and what follows. -/
def bound : List Char → Except Defect (Char × List Char)
  | [] => .error .openBracket
  | '[' :: m :: r =>
    if m = '.' || m = '=' then
      match enclosed m r with
      | some ([c], rest) => .ok (c, rest)
      | _ => .error .openBracket
    else .ok ('[', m :: r)
  | c :: r => .ok (c, r)

/-- The members of a bracket expression up to its closing bracket, and what follows. -/
def members : Nat → (first : Bool) → List Char → Except Defect (List Text.Member × List Char)
  | 0, _, _ => .error .openBracket
  | _, _, [] => .error .openBracket
  | n + 1, first, c :: r => do
    if c = ']' && !first then return ([], r)
    else
      match c, r with
      | '[', ':' :: r =>
        match enclosed ':' r with
        | none => .error .openBracket
        | some (name, rest) =>
          match Text.namedClass? (String.ofList name) with
          | none => .error .className
          | some p =>
            let (ms, rest) ← members n false rest
            return (.named p :: ms, rest)
      | _, _ =>
        let (low, r) ← bound (c :: r)
        match r with
        | '-' :: h :: rest =>
          if h = ']' then
            let (ms, rest) ← members n false r
            return (.range low low :: ms, rest)
          else
            let (high, rest) ← bound (h :: rest)
            if high < low then throw .range
            let (ms, rest) ← members n false rest
            return (.range low high :: ms, rest)
        | _ =>
          let (ms, rest) ← members n false r
          return (.range low low :: ms, rest)

/-- A bracket expression behind its opening bracket. -/
def brackets : Reads Pattern := do
  let rest := (← get).rest
  let bare := rest.head? == some ':' && (rest.takeWhile (· != ']')).getLast? == some ':'
  if bare && 1 < (rest.takeWhile (· != ']')).length then defect .bareClass
  else
    let negated := rest.head? == some '^'
    let inner := if negated then rest.drop 1 else rest
    if inner.isEmpty then defect .lonelyBracket
    let (ms, rest) ← (members (inner.length + 1) true inner : Except Defect _)
    modify fun s => { s with rest }
    return .among negated ms

/-- The largest bound of an interval. -/
def intervalLimit : Nat := 32767

/-- The bounds of an interval behind its opening brace, and what follows the closing one. -/
def interval? (d : Dialect) (cs : List Char) :
    Except Defect (Nat × Option Nat × List Char) := do
  let value (ds : List Char) : Nat := ds.foldl (fun n c => 10 * n + (c.toNat - '0'.toNat)) 0
  let low := cs.takeWhile Char.isDigit
  let behind := cs.drop low.length
  let comma := behind.head? == some ','
  let behind := if comma then behind.drop 1 else behind
  let high := if comma then behind.takeWhile Char.isDigit else []
  let behind := behind.drop high.length
  let rest ←
    match d.extended, behind with
    | true, '\x7d' :: r => pure r
    | false, '\\' :: '\x7d' :: r => pure r
    | _, [] => .error .openInterval
    | _, _ => .error .interval
  if low.isEmpty && !comma then .error .interval
  else
    let least := value low
    let most : Option Nat :=
      if !comma then some least else if high.isEmpty then none else some (value high)
    if intervalLimit < least || most.any (intervalLimit < ·) then .error .tooBig
    else if most.any (· < least) then .error .interval
    else return (least, most, rest)

/-- What a character means behind a backslash. -/
def escaped (c : Char) : Pattern :=
  let word : List Text.Member := [.named Text.isWordChar]
  let space : List Text.Member := [.named Text.isSpace]
  if c = 'w' then .among false word
  else if c = 'W' then .among true word
  else if c = 's' then .among false space
  else if c = 'S' then .among true space
  else if c = 'b' then .wordEdge true true
  else if c = 'B' then .noEdge
  else if c = '<' then .wordEdge true false
  else if c = '>' then .wordEdge false true
  else if c = '\'' then .textEnd
  else if c = Char.ofNat 96 then .textStart
  else .char c

/-- Whether a dollar sign ends a branch of a basic expression before this rest. -/
def endsBranch : List Char → Bool
  | [] => true
  | '\\' :: c :: _ => c == ')' || c == '|'
  | _ => false

mutual

/-- Read branches between bars. -/
def branches (d : Dialect) : Nat → (depth : Nat) → Reads Pattern
  | 0, _ => defect .tooBig
  | n + 1, depth => do
    let a ← branch d n depth true .empty
    match sign? d (← get).rest with
    | some (.bar, size) =>
      pass size
      return .alt a (← branches d n depth)
    | _ => return a

/-- Read the rest of a branch, behind what was read of it. -/
def branch (d : Dialect) : Nat → (depth : Nat) → (first : Bool) → Pattern → Reads Pattern
  | 0, _, _, _ => defect .tooBig
  | n + 1, depth, first, before => do
    let join (p : Pattern) : Pattern :=
      match before with
      | .empty => p
      | b => .seq b p
    let rest := (← get).rest
    match rest, sign? d rest with
    | [], _ => return before
    | _, some (.bar, _) => return before
    | _, some (.close, size) =>
      if depth != 0 then return before
      else if d.extended && d.lenient then
        pass size
        branch d n depth false (join (← repeats d n .none (.char ')')))
      else defect .closedGroup
    | _, some (.open, size) =>
      pass size
      modify fun s => { s with opened := s.opened + 1 }
      let number := (← get).opened
      let inner ← branches d n (depth + 1)
      match sign? d (← get).rest with
      | some (.close, size) =>
        pass size
        modify fun s => { s with closed := number :: s.closed }
        branch d n depth false (join (← repeats d n .none (.group number inner)))
      | _ => defect .openGroup
    | c :: r, some (sign, size) =>
      if first then
        if d.extended then
          if d.lenient then
            let whole := match sign with
              | .brace => interval? d r
              | _ => .ok (0, none, r)
            match whole with
            | .error _ =>
              pass size
              branch d n depth false (join (← repeats d n .none (.char c)))
            | .ok (_, _, rest) =>
              let name := if sign = .brace then "\x7b...\x7d" else String.singleton c
              modify fun s => { s with rest, skipped := name :: s.skipped }
              branch d n depth true before
          else defect .nothingToRepeat
        else if sign = .brace && !d.lenient then defect .nothingToRepeat
        else
          pass size
          let c := if size = 2 then r.headD c else c
          branch d n depth false (join (← repeats d n .none (.char c)))
      else
        pass size
        branch d n depth false (join (← repeats d n .none (.char c)))
    | '^' :: _, none =>
      pass 1
      if d.extended || first then branch d n depth true (join .lineStart)
      else branch d n depth false (join (← repeats d n .none (.char '^')))
    | '$' :: r, none =>
      pass 1
      if d.extended || endsBranch r then branch d n depth first (join .lineEnd)
      else branch d n depth false (join (← repeats d n .none (.char '$')))
    | '.' :: _, none =>
      pass 1
      branch d n depth false (join (← repeats d n .none .any))
    | '[' :: _, none =>
      pass 1
      let p ← brackets
      branch d n depth false (join (← repeats d n .none p))
    | '\\' :: c :: _, none =>
      pass 2
      if c.isDigit && c != '0' then
        let number := c.toNat - '0'.toNat
        if (← get).closed.contains number then
          branch d n depth false (join (← repeats d n .none (.again number)))
        else defect .reference
      else branch d n depth false (join (← repeats d n .none (escaped c)))
    | ['\\'], none => defect .backslash
    | c :: _, none =>
      pass 1
      branch d n depth false (join (← repeats d n .none (.char c)))

/-- Read how often a pattern is repeated; the sign before, if there was one, is given. -/
def repeats (d : Dialect) : Nat → Option Sign → Pattern → Reads Pattern
  | 0, _, _ => defect .tooBig
  | n + 1, last, p => do
    let counted (s : Sign) : Bool := s == .star || s == .brace
    let again (s : Sign) (least : Nat) (most : Option Nat) : Reads Pattern :=
      if !d.extended && !d.lenient && counted s && last.any counted then defect .nothingToRepeat
      else repeats d n (some s) (.repeated least most p)
    match sign? d (← get).rest with
    | some (.star, size) =>
      pass size
      again .star 0 none
    | some (.plus, size) =>
      pass size
      again .plus 1 none
    | some (.question, size) =>
      pass size
      again .question 0 (some 1)
    | some (.brace, size) =>
      match interval? d ((← get).rest.drop size) with
      | .ok (least, most, rest) =>
        modify fun s => { s with rest }
        again .brace least most
      | .error e =>
        if d.extended && d.lenient && e != .tooBig then return p else defect e
    | _ => return p

end

/-- The pattern that a text writes, and what was read of it. -/
def readAll (d : Dialect) (text : String) : Except Defect (Pattern × Reading) :=
  let cs := text.toList
  (branches d (4 * cs.length + 8) 0).run { rest := cs }

/-- The pattern that a text writes, and the number of its groups. -/
def Pattern.read (d : Dialect) (text : String) : Except Defect (Pattern × Nat) :=
  (readAll d text).map fun r => (r.1, r.2.opened)

end Isolation.Regex
