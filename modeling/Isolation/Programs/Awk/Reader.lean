import Isolation.Programs.Awk.Script

/-!
# Reading scripts of `awk`

The words of a script become trees. Expressions have levels, from the choice that binds least to the
power that binds most; what is printed must not hold a greater-than sign outside parentheses, since
there it names a file.

Readers of expressions and statements refer to one another through a record of readers, which is
built up level by level (`readers`).
-/

namespace Isolation.Programs.Awk

/-- The words that are left, with the number of the last line. -/
structure Reading where
  words : List (Nat × Word)
  line : Nat := 1

/-- What reads a part of a script. -/
abbrev Reads := StateT Reading (Except Complaint)

/-- What an expression must not hold at its place. -/
structure Limits where
  /-- A greater-than sign names a file here. -/
  printed : Bool := false
  /-- The word `in` belongs to a loop here. -/
  looped : Bool := false

/-- Readers of parts that hold one another. -/
structure Readers where
  expr : Limits → Nat → Reads Expr
  statement : Reads Statement

/-! ## 1. Words -/

/-- The next word. -/
def peek : Reads (Option Word) := return ((← get).words.head?).map Prod.snd

/-- Read a word. -/
def advance : Reads Unit := modify fun s =>
  match s.words with
  | [] => s
  | (line, w) :: ws => { words := ws, line := if w = .newline then line + 1 else line }

/-- Complain of the next word. -/
def unexpected {α : Type} : Reads α := do
  let s ← get
  match s.words with
  | (line, w) :: _ => throw (line, "syntax error at or near " ++ w.shown)
  | [] => throw (s.line + 1, "syntax error at or near end of file")

/-- Whether the next word is a sign; it is read if it is. -/
def accept (sign : String) : Reads Bool := do
  if (← peek) == some (.sign sign) then
    advance
    return true
  return false

/-- Read a sign. -/
def expect (sign : String) : Reads Unit := do
  if !(← accept sign) then unexpected

/-- Whether the next word is a keyword; it is read if it is. -/
def acceptKeyword (k : String) : Reads Bool := do
  if (← peek) == some (.keyword k) then
    advance
    return true
  return false

/-- Pass over the ends of lines. -/
def passLines : Reads Unit := modify fun s =>
  let rest := s.words.dropWhile fun w => w.2 == .newline
  { s with words := rest }

/-- Pass over the ends of lines and of statements. -/
def passEnds : Reads Unit := modify fun s =>
  let rest := s.words.dropWhile fun w => w.2 == .newline || w.2 == .sign ";"
  { s with words := rest }

/-! ## 2. Expressions -/

/-- The level of each kind of expression. -/
def Level.choice : Nat := 0
/-- The level of "or". -/
def Level.or : Nat := 1
/-- The level of "and". -/
def Level.and : Nat := 2
/-- The level of being in an array. -/
def Level.contains : Nat := 3
/-- The level of finding patterns. -/
def Level.found : Nat := 4
/-- The level of comparing. -/
def Level.compare : Nat := 5
/-- The level of reading what a command prints. -/
def Level.pipe : Nat := 6
/-- The level of joining texts. -/
def Level.join : Nat := 7
/-- The level of sums. -/
def Level.sum : Nat := 8
/-- The level of products. -/
def Level.product : Nat := 9
/-- The level of signs. -/
def Level.unary : Nat := 10
/-- The level of powers. -/
def Level.power : Nat := 11
/-- The level of what stands by itself. -/
def Level.operand : Nat := 12

/-- Expressions between commas. -/
def listOf (r : Readers) (l : Limits) : Nat → Reads (List Expr)
  | 0 => return []
  | n + 1 => do
    let e ← r.expr l Level.choice
    if ← accept "," then
      passLines
      return e :: (← listOf r l n)
    return [e]

/-- The number of words that are left, which bounds rows of any kind. -/
def wordsLeft : Reads Nat := return (← get).words.length + 1

/-- The arguments behind an opening parenthesis, with the closing one. -/
def arguments (r : Readers) : Reads (List Expr) := do
  passLines
  if ← accept ")" then return []
  let es ← listOf r {} (← wordsLeft)
  passLines
  expect ")"
  return es

/-- Whether a value can be given to an expression. -/
def isTarget : Expr → Bool
  | .name _ | .field _ | .element .. => true
  | _ => false

/-- A target that may be missing. -/
def optionalTarget (r : Readers) : Reads (Option Expr) := do
  match ← peek with
  | some (.name _) | some (.sign "$") =>
    let e ← r.expr {} Level.operand
    return some e
  | _ => return none

/-- An operand without the steps behind it. -/
def operandStart (r : Readers) (l : Limits) : Reads Expr := do
  match ← peek with
  | some (.number d) =>
    advance
    return .number d
  | some (.text s) =>
    advance
    return .text s
  | some (.pattern s) =>
    advance
    return .pattern s
  | some (.name n) =>
    advance
    if ← accept "[" then
      let index ← listOf r {} (← wordsLeft)
      expect "]"
      return .element n index
    return .name n
  | some (.call n) =>
    advance
    expect "("
    return .call n (← arguments r)
  | some (.builtin n) =>
    advance
    if ← accept "(" then return .builtin n (← arguments r)
    if n = "length" then return .builtin n []
    unexpected
  | some (.keyword "getline") =>
    advance
    let target ← optionalTarget r
    if ← accept "<" then
      let e ← r.expr { l with printed := true } Level.operand
      return .line target (some (false, e))
    return .line target none
  | some (.sign "(") =>
    advance
    let es ← listOf r {} (← wordsLeft)
    passLines
    expect ")"
    match es with
    | [e] => return .group [e]
    | es =>
      if (← peek) == some (.keyword "in") then
        advance
        match ← peek with
        | some (.name a) =>
          advance
          return .contains es a
        | _ => unexpected
      return .group es
  | some (.sign "$") =>
    advance
    if ← accept "++" then return .field (.step true true (← r.expr l Level.operand))
    if ← accept "--" then return .field (.step true false (← r.expr l Level.operand))
    if ← accept "-" then return .field (.minus (← r.expr l (Level.operand + 1)))
    return .field (← r.expr l (Level.operand + 1))
  | some (.sign "++") =>
    advance
    return .step true true (← r.expr l Level.operand)
  | some (.sign "--") =>
    advance
    return .step true false (← r.expr l Level.operand)
  | some (.sign "-") =>
    advance
    return .minus (← r.expr l Level.unary)
  | some (.sign "+") =>
    advance
    return .plus (← r.expr l Level.unary)
  | some (.sign "!") =>
    advance
    return .not (← r.expr l Level.unary)
  | _ => unexpected

/-- An operand; behind a target a step may stand. -/
def operand (r : Readers) (l : Limits) : Reads Expr := do
  let e ← operandStart r l
  if isTarget e then
    if ← accept "++" then return .step false true e
    if ← accept "--" then return .step false false e
  return e

/-- Whether an operand may begin with a word, so that it is joined to what stands before. -/
def joins : Word → Bool
  | .number _ | .text _ | .pattern _ | .name _ | .call _ | .builtin _ => true
  | .sign s => s == "$" || s == "(" || s == "!" || s == "-" || s == "+" || s == "++" || s == "--"
  | _ => false

/-- The operators of a level, with what they make. -/
def operator? (l : Limits) (level : Nat) (w : Word) : Option (Expr → Expr → Expr) :=
  match w with
  | .sign s =>
    if level = Level.or then if s = "||" then some .or else none
    else if level = Level.and then if s = "&&" then some .and else none
    else if level = Level.found then
      if s = "~" then some (.found false) else if s = "!~" then some (.found true) else none
    else if level = Level.compare then
      if ["<", "<=", "==", "!=", ">="].contains s || (s = ">" && !l.printed) then some (.compare s)
      else none
    else if level = Level.sum then
      if s = "+" then some (.reckon '+') else if s = "-" then some (.reckon '-') else none
    else if level = Level.product then
      if s = "*" || s = "/" || s = "%" then some (.reckon (s.toList.headD '*')) else none
    else none
  | _ => none

/-- Go on behind an operand of a level. -/
def chain (r : Readers) (l : Limits) (level : Nat) : Nat → Expr → Reads Expr
  | 0, e => return e
  | n + 1, e => do
    match ← peek with
    | none => return e
    | some w =>
      match operator? l level w with
      | some make =>
        advance
        if level = Level.or || level = Level.and then passLines
        let b ← r.expr l (level + 1)
        chain r l level n (make e b)
      | none =>
        if level = Level.contains && w = .keyword "in" && !l.looped then
          advance
          match ← peek with
          | some (.name a) =>
            advance
            let index := match e with
              | .group es => es
              | e => [e]
            chain r l level n (.contains index a)
          | _ => unexpected
        else if level = Level.pipe && w = .sign "|" then
          let rest := (← get).words.drop 1
          match rest.head?.map Prod.snd with
          | some (.keyword "getline") =>
            advance
            advance
            let target ← optionalTarget r
            chain r l level n (.line target (some (true, e)))
          | _ => return e
        else if level = Level.join && joins w then
          let b ← r.expr l (level + 1)
          chain r l level n (.join e b)
        else return e

/-- The operator that an assignment combines with, if a word is an assignment. -/
def assignment? : Word → Option (Option Char)
  | .sign "=" => some none
  | .sign "+=" => some (some '+')
  | .sign "-=" => some (some '-')
  | .sign "*=" => some (some '*')
  | .sign "/=" => some (some '/')
  | .sign "%=" => some (some '%')
  | .sign "^=" => some (some '^')
  | _ => none

/-- An expression of at least some level. -/
def exprBody (r : Readers) (l : Limits) (level : Nat) : Reads Expr := do
  if level = Level.choice then
    let e ← r.expr l Level.or
    match (← peek).bind assignment? with
    | some op =>
      if isTarget e then
        advance
        passLines
        return .assign op e (← r.expr l Level.choice)
      unexpected
    | none =>
      if ← accept "?" then
        passLines
        let yes ← r.expr l Level.choice
        passLines
        expect ":"
        passLines
        return .choice e yes (← r.expr l Level.choice)
      return e
  else if level = Level.unary then
    match ← peek with
    | some (.sign "!") =>
      advance
      return .not (← r.expr l Level.unary)
    | some (.sign "-") =>
      advance
      return .minus (← r.expr l Level.unary)
    | some (.sign "+") =>
      advance
      return .plus (← r.expr l Level.unary)
    | _ => r.expr l Level.power
  else if level = Level.power then
    let a ← r.expr l Level.operand
    match (← peek).bind assignment?, isTarget a with
    | some op, true =>
      -- An assignment binds its target tighter than what stands before it.
      advance
      passLines
      return .assign op a (← r.expr l Level.choice)
    | _, _ =>
      if ← accept "^" then return .reckon '^' a (← r.expr l Level.unary)
      return a
  else if level = Level.operand then operand r l
  else if Level.operand < level then operandStart r l
  else
    let a ← r.expr l (level + 1)
    chain r l level (← wordsLeft) a

/-! ## 3. Statements -/

/-- Read the end of a statement. -/
def statementEnd : Reads Unit := do
  match ← peek with
  | some .newline | some (.sign ";") =>
    advance
    passLines
  | some (.sign "\x7d") | none => return
  | _ => unexpected

/-- Where something is printed to. -/
def goal (r : Readers) : Reads Goal := do
  let target : Reads Expr := r.expr { printed := true } Level.join
  if ← accept ">" then return .file (← target) false
  if ← accept ">>" then return .file (← target) true
  if ← accept "|" then return .command (← target)
  return .output

/-- What is printed. -/
def printed (r : Readers) : Reads (List Expr) := do
  match ← peek with
  | none | some .newline => return []
  | some (.sign s) =>
    if [";", "\x7d", ">", ">>", "|"].contains s then return []
  | _ => pure ()
  match ← listOf r { printed := true } (← wordsLeft) with
  | [.group es] => return es
  | es => return es

/-- A statement without its end. -/
def simple (r : Readers) : Reads Statement := do
  match ← peek with
  | some (.keyword "print") =>
    advance
    let es ← printed r
    return .print es (← goal r)
  | some (.keyword "printf") =>
    advance
    let es ← printed r
    return .format es (← goal r)
  | some (.keyword "delete") =>
    advance
    match ← peek with
    | some (.name a) =>
      advance
      if ← accept "[" then
        let index ← listOf r {} (← wordsLeft)
        expect "]"
        return .remove a index
      return .remove a []
    | _ => unexpected
  | _ => return .expr (← r.expr {} Level.choice)

/-- Statements up to a closing brace. -/
def statements (r : Readers) : Nat → Reads (List Statement)
  | 0 => return []
  | n + 1 => do
    passEnds
    match ← peek with
    | none =>
      let s ← get
      throw (s.line + 1, "missing \x7d near end of file")
    | some (.sign "\x7d") =>
      advance
      return []
    | _ =>
      let s ← r.statement
      return s :: (← statements r n)

/-- A block behind its opening brace. -/
def block (r : Readers) : Reads Statement := do
  return .block (← statements r (← wordsLeft))

/-- The statement that belongs to a condition or a loop. -/
def inner (r : Readers) : Reads Statement := do
  passLines
  if ← accept ";" then return .nothing
  r.statement

/-- A loop that counts, or that goes through an array, behind its opening parenthesis. -/
def counting (r : Readers) : Reads Statement := do
  match ((← get).words.take 4).map Prod.snd with
  | [.name n, .keyword "in", .name a, .sign ")"] =>
    advance
    advance
    advance
    advance
    return .each n a (← inner r)
  | _ =>
    let first ← if (← peek) == some (.sign ";") then pure .nothing else simple r
    expect ";"
    passLines
    let condition ←
      if (← peek) == some (.sign ";") then pure none
      else do pure (some (← r.expr {} Level.choice))
    expect ";"
    passLines
    let step ← if (← peek) == some (.sign ")") then pure .nothing else simple r
    expect ")"
    return .count first condition step (← inner r)

/-- Whether an `else` follows, perhaps behind an end of a statement; it is read if it does. -/
def acceptElse : Reads Bool := do
  let s ← get
  passEnds
  if ← acceptKeyword "else" then return true
  set s
  return false

/-- A condition in parentheses. -/
def condition (r : Readers) : Reads Expr := do
  expect "("
  let e ← r.expr {} Level.choice
  passLines
  expect ")"
  return e

/-- A statement with its end. -/
def statementBody (r : Readers) : Reads Statement := do
  let ended (s : Statement) : Reads Statement := do
    statementEnd
    return s
  match ← peek with
  | some (.sign "\x7b") =>
    advance
    let s ← block r
    passEnds
    return s
  | some (.sign ";") =>
    advance
    return .nothing
  | some (.keyword "if") =>
    advance
    let c ← condition r
    let yes ← inner r
    if ← acceptElse then return .branch c yes (← inner r)
    return .branch c yes .nothing
  | some (.keyword "while") =>
    advance
    let c ← condition r
    if ← accept ";" then return .loop c .nothing
    return .loop c (← inner r)
  | some (.keyword "do") =>
    advance
    let body ← inner r
    passEnds
    if !(← acceptKeyword "while") then unexpected
    let c ← condition r
    ended (.loopBehind body c)
  | some (.keyword "for") =>
    advance
    expect "("
    counting r
  | some (.keyword "break") =>
    advance
    ended .leave
  | some (.keyword "continue") =>
    advance
    ended .skip
  | some (.keyword "next") =>
    advance
    ended .next
  | some (.keyword "nextfile") =>
    advance
    ended .nextFile
  | some (.keyword "exit") | some (.keyword "return") =>
    let isExit := (← peek) == some (.keyword "exit")
    advance
    let value ←
      match ← peek with
      | none | some .newline | some (.sign ";") | some (.sign "\x7d") => pure none
      | _ => do pure (some (← r.expr {} Level.choice))
    ended (if isExit then .exit value else .give value)
  | _ => do
    let s ← simple r
    ended s

/-- Readers of parts that hold one another so deep at most. -/
def readers : Nat → Readers
  | 0 => { expr := fun _ _ => unexpected, statement := unexpected }
  | n + 1 =>
    { expr := fun l level => exprBody (readers n) l level
      statement := statementBody (readers n) }

/-! ## 4. Scripts -/

/-- The names of parameters behind an opening parenthesis. -/
def params : Nat → Reads (List String)
  | 0 => return []
  | n + 1 => do
    passLines
    match ← peek with
    | some (.sign ")") =>
      advance
      return []
    | some (.sign ",") =>
      advance
      params n
    | some (.name p) =>
      advance
      return p :: (← params n)
    | _ => unexpected

/-- The rules and functions of a script. -/
def rules (r : Readers) : Nat → Script → Reads Script
  | 0, s => return s
  | n + 1, s => do
    passEnds
    let add (t : Trigger) (body : Statement) : Reads Script :=
      rules r n { s with rules := s.rules ++ [(t, body)] }
    let action : Reads Statement := do
      if ← accept "\x7b" then block r else unexpected
    match ← peek with
    | none => return s
    | some (.keyword "BEGIN") =>
      advance
      add .start (← action)
    | some (.keyword "END") =>
      advance
      add .finish (← action)
    | some (.keyword "function") =>
      advance
      match ← peek with
      | some (.name f) | some (.call f) =>
        advance
        expect "("
        let ps ← params (← wordsLeft)
        passLines
        let body ← action
        rules r n { s with functions := s.functions ++ [(f, ⟨ps, body⟩)] }
      | _ => unexpected
    | some (.sign "\x7b") => add .always (← action)
    | some (.sign "\x7d") =>
      let line := ((← get).words.head?.map Prod.fst).getD 1
      throw (line, "extra '\x7d'")
    | _ =>
      let first ← r.expr {} Level.choice
      let last ←
        if ← accept "," then do
          passLines
          pure (some (← r.expr {} Level.choice))
        else pure none
      let body ←
        if (← peek) == some (.sign "\x7b") then action
        else do
          match ← peek with
          | none | some .newline | some (.sign ";") => pure (.print [] .output)
          | _ => unexpected
      match last with
      | some last => add (.range first last) body
      | none => add (.whenever first) body

/-- Read a script. -/
def readScript (text : String) : Except Complaint Script := do
  let cs := text.toList
  let ws ← words (cs.length + 1) 1 false cs
  let lines := (ws.getLast?.map Prod.fst).getD 1
  let (script, _) ← (rules (readers (14 * ws.length + 20)) (ws.length + 2) {}).run
    { words := ws, line := lines }
  return script

end Isolation.Programs.Awk
