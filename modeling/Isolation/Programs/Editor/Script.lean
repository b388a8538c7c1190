import Isolation.Programs.Options
import Isolation.Regex.Reading

/-!
# Scripts of the line editor

A script of the line editor is a row of commands, each of which may be bound to some lines. Blocks
and jumps are kept as places in the row. Reading a script counts the characters of every source, so
that a complaint tells where it arose.
-/

namespace Isolation.Programs.Editor

open Isolation.Regex

/-! ## 1. Commands -/

/-- A regular expression of a script. -/
structure Expression where
  pattern : Pattern
  /-- The number of its groups. -/
  groups : Nat
  caseless : Bool := false
  /-- Whether lines within the text begin and end where they do. -/
  lines : Bool := false

/-- The first bound of some lines. An expression that is missing is the one used last. -/
inductive Address where
  | line (n : Nat)
  | step (start width : Nat)
  | last
  | found (e : Option Expression)

/-- The second bound of some lines. -/
inductive Bound where
  | line (n : Nat)
  /-- So many lines more. -/
  | more (n : Nat)
  /-- Up to the next line whose number is a multiple. -/
  | multiple (n : Nat)
  | last
  | found (e : Option Expression)

/-- The lines that a command is bound to. -/
structure Selector where
  first : Option Address := none
  second : Option Bound := none
  negated : Bool := false

/-- How letters are changed. -/
inductive Case where
  | upper
  | lower
  | plain
  /-- The next letter alone. -/
  | upperNext
  | lowerNext
deriving DecidableEq, Repr

/-- A piece of a replacement. -/
inductive Piece where
  | text (s : String)
  | group (n : Nat)
  | cased (c : Case)
deriving DecidableEq, Repr

/-- A substitution. -/
structure Substitution where
  expression : Option Expression
  pieces : List Piece
  global : Bool := false
  /-- Whether the result is printed. -/
  printed : Bool := false
  /-- The occurrence that is replaced first. -/
  number : Nat := 1
  /-- Whether the result is run as a command. -/
  run : Bool := false
  file : Option String := none

/-- A command. -/
inductive Command where
  /-- Where the lines are not selected, the commands before some place are passed over. -/
  | block (stop : Nat)
  | nothing
  | number
  | insert (text : String)
  | append (text : String)
  | change (text : String)
  /-- Go to a place, or to the end of the script; only if there was a substitution, or there was
      none, where that is asked for. -/
  | jump (replaced : Option Bool) (target : Option Nat)
  | delete
  | deleteFirst
  | print
  | printFirst
  | next
  | join
  | get
  | getBehind
  | keep
  | keepBehind
  | exchange
  | list (width : Option Nat)
  | quit (prints : Bool) (status : Nat)
  | readFile (path : String)
  | readLine (path : String)
  | writeFile (path : String)
  | writeFirst (path : String)
  | substitute (s : Substitution)
  | translate (table : List (Char × Char))
  | clear
  | fileName
  | execute (command : String)

/-- A command with the lines that it is bound to. -/
structure Line where
  selector : Selector
  command : Command

/-! ## 2. Reading -/

/-- A part of a script. -/
structure Source where
  /-- The name of the file that it comes from. -/
  file : Option String := none
  text : String

/-- A reading under way. -/
structure Reading where
  rest : List Char
  /-- The number of characters that were read of the source. -/
  count : Nat := 0
  line : Nat := 1
  file : Option String := none
  /-- The number of the source among those that are no files. -/
  number : Nat := 0
  later : List Source := []
  lines : Array Line := #[]
  /-- The places of blocks that are open, the last first. -/
  blocks : List Nat := []
  labels : List (String × Nat) := []
  /-- Jumps to labels, the last first. -/
  jumps : List (Nat × String) := []
  /-- Whether the script asks that nothing be printed by itself. -/
  quiet : Bool := false
  extended : Bool := false

/-- What ends a reading: a complaint and a status. -/
abbrev Complaint := String × Nat

/-- What reads a part of a script. -/
abbrev Reads := StateT Reading (Except Complaint)

/-- A quotation mark that opens. -/
def openMark : String := String.singleton (Char.ofNat 96)

/-- A text between marks. -/
def marked (s : String) : String := openMark ++ s ++ "'"

/-- Complain of the place that was reached. -/
def wrong {α : Type} (message : String) : Reads α := do
  let s ← get
  let place := match s.file with
    | some path => "file " ++ path ++ " line " ++ toString s.line
    | none => "-e expression #" ++ toString s.number ++ ", char " ++ toString s.count
  throw (place ++ ": " ++ message, 1)

/-- Read a character. -/
def next : Reads (Option Char) := do
  let s ← get
  match s.rest with
  | [] => return none
  | c :: rest =>
    set { s with rest, count := s.count + 1, line := if c = '\n' then s.line + 1 else s.line }
    return some c

/-- Give a character back. -/
def giveBack : Option Char → Reads Unit
  | none => return
  | some c => modify fun s => { s with
      rest := c :: s.rest
      count := s.count - 1
      line := if c = '\n' then s.line - 1 else s.line }

/-- Read the characters at the front that pass a test. -/
def readWhile (p : Char → Bool) : Reads (List Char) := do
  let cs := (← get).rest.takeWhile p
  modify fun s => { s with
    rest := s.rest.drop cs.length
    count := s.count + cs.length
    line := s.line + cs.count '\n' }
  return cs

/-- Whether a character is a blank. -/
def isBlank (c : Char) : Bool := c == ' ' || c == '\t'

/-- Read the next character that is no blank. -/
def nextFilled : Reads (Option Char) := do
  let _ ← readWhile isBlank
  next

/-- Read the rest of an integer. -/
def integer (first : Char) : Reads Nat := do
  let ds ← readWhile Char.isDigit
  return (first :: ds).foldl (fun n c => 10 * n + (c.toNat - '0'.toNat)) 0

/-- Read the end of a command. -/
def commandEnd : Reads Unit := do
  match ← nextFilled with
  | none | some '\n' | some ';' => return
  | some c =>
    if c = '\x7d' || c = '#' then giveBack (some c)
    else wrong "extra characters after command"

/-- Read a label. -/
def label : Reads String := do
  let _ ← readWhile isBlank
  let cs ← readWhile fun c => !(Text.isSpace c || c == ';' || c == '\x7d')
  return String.ofList cs

/-- Read the name of a file, up to the end of the line. -/
def fileNameArgument : Reads String := do
  let _ ← readWhile isBlank
  let cs ← readWhile (· != '\n')
  let _ ← next
  if cs.isEmpty then wrong "missing filename in r/R/w/W commands"
  return String.ofList cs

/-! ## 3. Texts between delimiters -/

/-- The length of a bracket expression behind its opening bracket, its closing one included; `none`
    if it is not closed. -/
def bracketLength? (cs : List Char) : Option Nat :=
  let negation := if cs.head? == some '^' then 1 else 0
  let first := if (cs.drop negation).head? == some ']' then 1 else 0
  (go (cs.length + 1) (cs.drop (negation + first))).map (· + negation + first)
where
  /-- The length up to the closing bracket. -/
  go : Nat → List Char → Option Nat
    | 0, _ | _, [] => none
    | _, ']' :: _ => some 1
    | _, '\n' :: _ => none
    | n + 1, '[' :: m :: r =>
      if m == ':' || m == '.' || m == '=' then
        match Text.cut? [m, ']'] r with
        | some (inner, rest) => (go n rest).map (· + inner.length + 4)
        | none => (go n (m :: r)).map (· + 1)
      else (go n (m :: r)).map (· + 1)
    | n + 1, _ :: r => (go n r).map (· + 1)

/-- Read up to a delimiter, which may stand in the text behind a backslash. Within an expression
    brackets may hold it as it is. -/
def delimited (expression : Bool) (slash : Char) : Nat → List Char → Reads (Option (List Char))
  | 0, _ => return none
  | n + 1, acc => do
    match ← next with
    | none => return none
    | some '\n' =>
      giveBack (some '\n')
      return none
    | some c =>
      if c = slash then return some acc.reverse
      else if c = '\\' then
        match ← next with
        | none => return none
        | some d =>
          if d = 'n' && expression then delimited expression slash n ('\n' :: acc)
          else if d = '\n' then
            delimited expression slash n (if expression then '\n' :: acc else '\n' :: '\\' :: acc)
          else if d = slash && (expression || d != '&') then delimited expression slash n (d :: acc)
          else delimited expression slash n (d :: '\\' :: acc)
      else if c = '[' && expression then
        match bracketLength? (← get).rest with
        | none => do
          let _ ← readWhile (· != '\n')
          return none
        | some size =>
          let inner := (← get).rest.take size
          modify fun s => { s with rest := s.rest.drop size, count := s.count + size }
          delimited expression slash n ((inBrackets inner).reverse ++ '[' :: acc)
      else delimited expression slash n (c :: acc)
where
  /-- The characters within brackets, the escapes of a line end and of the delimiter being read. -/
  inBrackets : List Char → List Char
    | '\\' :: 'n' :: r => '\n' :: inBrackets r
    | '\\' :: c :: r => if c = slash then c :: inBrackets r else '\\' :: inBrackets (c :: r)
    | c :: r => c :: inBrackets r
    | [] => []
  termination_by cs => cs.length

/-- The character that a letter stands for behind a backslash. -/
def controlLetter? : Char → Option Char
  | 'a' => some (Char.ofNat 7)
  | 'f' => some (Char.ofNat 12)
  | 'r' => some '\r'
  | 't' => some '\t'
  | 'v' => some (Char.ofNat 11)
  | _ => none

/-- The value of a digit of any base. -/
def digitValue (c : Char) : Nat :=
  if c.isDigit then c.toNat - '0'.toNat else c.toLower.toNat - 'a'.toNat + 10

/-- The character that a sequence behind a backslash stands for, and what follows it. -/
def escape? : List Char → Option (Char × List Char)
  | [] => none
  | c :: r =>
    let number (base size : Nat) (isDigit : Char → Bool) : Option (Char × List Char) :=
      let ds := (r.take size).takeWhile isDigit
      if ds.isEmpty then none
      else
        let n := ds.foldl (fun n d => base * n + digitValue d) 0
        some (Char.ofNat (n % 256), r.drop ds.length)
    match controlLetter? c with
    | some d => some (d, r)
    | none =>
      match c, r with
      | 'd', _ => number 10 3 Char.isDigit
      | 'o', _ => number 8 3 fun c => '0' ≤ c && c ≤ '7'
      | 'x', _ => number 16 2 Text.isHexDigit
      | 'c', x :: r => some (Char.ofNat (x.toUpper.toNat ^^^ 64), r)
      | _, _ => none

/-- The text of an expression with its escapes read. -/
def expressionText : Nat → List Char → List Char
  | 0, cs => cs
  | _, [] => []
  | n + 1, '\\' :: r =>
    match escape? r with
    | some (c, rest) => c :: expressionText n rest
    | none =>
      match r with
      | c :: rest => '\\' :: c :: expressionText n rest
      | [] => ['\\']
  | n + 1, c :: r => c :: expressionText n r

/-- The regular expression of a text. -/
def expression (text : List Char) (caseless lines : Bool) : Reads (Option Expression) := do
  if text.isEmpty then
    if caseless || lines then wrong "cannot specify modifiers on empty regexp"
    return none
  let source := String.ofList (expressionText (text.length + 1) text)
  match Pattern.read { extended := (← get).extended } source with
  | .ok (pattern, groups) => return some { pattern, groups, caseless, lines }
  | .error .bareClass => throw (Regex.Defect.message .bareClass, 4)
  | .error d => wrong d.message

/-- The pieces of a replacement. -/
def pieces : Nat → List Char → List Piece
  | 0, _ | _, [] => []
  | n + 1, '&' :: r => .group 0 :: pieces n r
  | n + 1, '\\' :: r =>
    match r with
    | [] => [.text "\\"]
    | c :: rest =>
      if c.isDigit then .group (c.toNat - '0'.toNat) :: pieces n rest
      else
        match c with
        | 'U' => .cased .upper :: pieces n rest
        | 'L' => .cased .lower :: pieces n rest
        | 'E' => .cased .plain :: pieces n rest
        | 'u' => .cased .upperNext :: pieces n rest
        | 'l' => .cased .lowerNext :: pieces n rest
        | 'n' => .text "\n" :: pieces n rest
        | _ =>
          match escape? r with
          | some (d, rest) => .text (String.singleton d) :: pieces n rest
          | none => .text (String.singleton c) :: pieces n rest
  | n + 1, c :: r => .text (String.singleton c) :: pieces n r

/-- The characters of one side of a translation. -/
def translationSide : List Char → List Char
  | '\\' :: 'n' :: r => '\n' :: translationSide r
  | '\\' :: c :: r =>
    match controlLetter? c with
    | some d => d :: translationSide r
    | none => c :: translationSide r
  | c :: r => c :: translationSide r
  | [] => []

/-! ## 4. Texts of commands -/

/-- Move to the next source. -/
def nextSource : Reads Bool := do
  let s ← get
  match s.later with
  | [] => return false
  | source :: later =>
    set { s with
      rest := source.text.toList
      count := 0
      line := 1
      file := source.file
      number := if source.file.isNone then s.number + 1 else s.number
      later }
    return true

/-- Read the lines of a text, up to the first that does not end in a backslash. -/
def textLines : Nat → List Char → Reads String
  | 0, acc => return String.ofList acc.reverse
  | n + 1, acc => do
    match ← next with
    | none | some '\n' => return String.ofList ('\n' :: acc).reverse
    | some '\\' =>
      match ← next with
      | none =>
        if ← nextSource then textLines n ('\n' :: acc)
        else return String.ofList ('\n' :: acc).reverse
      | some 'n' => textLines n ('\n' :: acc)
      | some c =>
        let s ← get
        match escape? (c :: s.rest) with
        | some (d, rest) =>
          set { s with rest, count := s.count + (s.rest.length - rest.length) }
          textLines n (d :: acc)
        | none => textLines n (c :: acc)
    | some c => textLines n (c :: acc)

/-- Read the text of a command. -/
def commandText : Reads String := do
  let fuel := (← get).rest.length + ((← get).later.map fun s => s.text.length + 2).foldl (· + ·) 2
  match ← nextFilled with
  | none => wrong ("expected \\ after " ++ marked "a" ++ ", " ++ marked "c" ++ " or " ++ marked "i")
  | some '\n' => textLines fuel []
  | some '\\' =>
    match ← next with
    | some '\n' => textLines fuel []
    | none => if ← nextSource then textLines fuel [] else return ""
    | c =>
      giveBack c
      textLines fuel []
  | c =>
    giveBack c
    textLines fuel []

/-! ## 5. Addresses -/

/-- Read the marks behind an expression that bounds lines. -/
def addressMarks : Nat → (caseless lines : Bool) → Reads (Bool × Bool)
  | 0, i, m => return (i, m)
  | n + 1, i, m => do
    match ← nextFilled with
    | some 'I' => addressMarks n true m
    | some 'M' => addressMarks n i true
    | c =>
      giveBack c
      return (i, m)

/-- A bound as it is written. -/
inductive Written where
  | at (a : Address)
  | more (n : Nat)
  | multiple (n : Nat)

/-- Read a bound that begins with a character, if one does. -/
def address (c : Option Char) : Reads (Option Written) := do
  let fuel := (← get).rest.length + 1
  let matching (slash : Option Char) : Reads (Option Written) := do
    let unterminated := "unterminated address regex"
    match slash with
    | none => wrong unterminated
    | some slash =>
      match ← delimited true slash fuel [] with
      | none => wrong unterminated
      | some text =>
        let (i, m) ← addressMarks fuel false false
        return some (.at (.found (← expression text i m)))
  match c with
  | some '/' => matching (some '/')
  | some '\\' => matching (← next)
  | some '$' => return some (.at .last)
  | some c =>
    if c.isDigit then
      let n ← integer c
      match ← nextFilled with
      | some '~' =>
        match ← nextFilled with
        | some d =>
          if d.isDigit then
            let width ← integer d
            return some (.at (if width = 0 then .line n else .step n width))
          giveBack (some d)
          return some (.at (.line n))
        | none => return some (.at (.line n))
      | d =>
        giveBack d
        return some (.at (.line n))
    else if c = '+' || c = '~' then
      let d ← nextFilled
      let n ← match d with
        | some d =>
          if d.isDigit then integer d
          else do
            giveBack (some d)
            pure 0
        | none => pure 0
      return some (if c = '+' then .more n else .multiple n)
    else return none
  | none => return none

/-- The second bound that is written. -/
def Written.bound : Written → Bound
  | .at (.line n) => .line n
  | .at (.step n _) => .line n
  | .at .last => .last
  | .at (.found e) => .found e
  | .more n => .more n
  | .multiple n => .multiple n

/-- Read the lines that a command is bound to, and its first character. -/
def selector (c : Option Char) : Reads (Selector × Option Char) := do
  let first? ← address c
  let (s, c) ←
    match first? with
    | none => pure (({} : Selector), c)
    | some (.more _) | some (.multiple _) =>
      wrong "invalid usage of +N or ~N as first address"
    | some (.at first) =>
      match ← nextFilled with
      | some ',' =>
        match ← address (← nextFilled) with
        | none => wrong ("unexpected " ++ marked ",")
        | some w =>
          let c ← nextFilled
          pure (({ first := some first, second := some w.bound } : Selector), c)
      | c => pure (({ first := some first } : Selector), c)
  match s.first, s.second with
  | some (.line 0), some (.found _) => pure ()
  | some (.line 0), _ => wrong "invalid usage of line address 0"
  | _, _ => pure ()
  match c with
  | some '!' =>
    let c ← nextFilled
    if c == some '!' then wrong ("multiple " ++ marked "!" ++ "s")
    return ({ s with negated := true }, c)
  | c => return (s, c)

/-! ## 6. Commands as they are written -/

/-- The marks behind a substitution. -/
structure Marks where
  caseless : Bool := false
  lines : Bool := false
  global : Bool := false
  printed : Bool := false
  run : Bool := false
  number : Option Nat := none
  file : Option String := none

/-- Read the marks behind a substitution. -/
def substitutionMarks : Nat → Marks → Reads Marks
  | 0, m => return m
  | n + 1, m => do
    let several (what : String) : Reads Marks :=
      wrong ("multiple " ++ what ++ " options to " ++ marked "s" ++ " command")
    match ← next with
    | none | some '\n' | some ';' => return m
    | some c =>
      if c = '\x7d' || c = '#' then
        giveBack (some c)
        return m
      else if c = ' ' || c = '\t' || c = '\r' then substitutionMarks n m
      else if c = 'i' || c = 'I' then substitutionMarks n { m with caseless := true }
      else if c = 'm' || c = 'M' then substitutionMarks n { m with lines := true }
      else if c = 'e' then substitutionMarks n { m with run := true }
      else if c = 'p' then
        if m.printed then several (marked "p") else substitutionMarks n { m with printed := true }
      else if c = 'g' then
        if m.global then several (marked "g") else substitutionMarks n { m with global := true }
      else if c = 'w' then return { m with file := some (← fileNameArgument) }
      else if c.isDigit then
        if m.number.isSome then several "number"
        else
          let k ← integer c
          if k = 0 then
            wrong ("number option to " ++ marked "s" ++ " command may not be zero")
          substitutionMarks n { m with number := some k }
      else wrong ("unknown option to " ++ marked "s")

/-- Read a substitution. -/
def substitution : Reads Command := do
  let fuel := (← get).rest.length + 1
  let unterminated {α : Type} : Reads α := wrong ("unterminated " ++ marked "s" ++ " command")
  match ← next with
  | none => unterminated
  | some slash =>
    if slash = '\n' || slash = '\\' then unterminated
    match ← delimited true slash fuel [] with
    | none => unterminated
    | some text =>
      match ← delimited false slash fuel [] with
      | none => unterminated
      | some replacement =>
        let m ← substitutionMarks fuel {}
        let e ← expression text m.caseless m.lines
        let ps := pieces (replacement.length + 1) replacement
        let highest := (ps.map fun | .group n => n | _ => 0).foldl max 0
        match e with
        | some e =>
          if e.groups < highest then
            wrong ("invalid reference \\" ++ toString highest ++ " on " ++ marked "s" ++
              " command's RHS")
        | none => pure ()
        return .substitute
          { expression := e
            pieces := ps
            global := m.global
            printed := m.printed
            number := m.number.getD 1
            run := m.run
            file := m.file }

/-- Read a translation. -/
def translation : Reads Command := do
  let fuel := (← get).rest.length + 1
  let unterminated {α : Type} : Reads α := wrong ("unterminated " ++ marked "y" ++ " command")
  match ← next with
  | none => unterminated
  | some slash =>
    match ← delimited false slash fuel [] with
    | none => unterminated
    | some source =>
      match ← delimited false slash fuel [] with
      | none => unterminated
      | some goal =>
        let source := translationSide source
        let goal := translationSide goal
        if source.length != goal.length then
          wrong ("strings for " ++ marked "y" ++ " command are different lengths")
        commandEnd
        return .translate (source.zip goal)

/-- The command of a letter that nothing follows. -/
def simple? : Char → Option Command
  | '=' => some .number
  | 'd' => some .delete
  | 'D' => some .deleteFirst
  | 'F' => some .fileName
  | 'g' => some .get
  | 'G' => some .getBehind
  | 'h' => some .keep
  | 'H' => some .keepBehind
  | 'n' => some .next
  | 'N' => some .join
  | 'p' => some .print
  | 'P' => some .printFirst
  | 'x' => some .exchange
  | 'z' => some .clear
  | _ => none

/-- Add a command. -/
def add (s : Selector) (c : Command) : Reads Unit :=
  modify fun r => { r with lines := r.lines.push ⟨s, c⟩ }

/-- Read a number that may follow a command. -/
def optionalNumber : Reads (Option Nat) := do
  match ← nextFilled with
  | some c =>
    if c.isDigit then return some (← integer c)
    giveBack (some c)
    return none
  | none => return none

/-- Read a command that begins with a character. -/
def command (s : Selector) (c : Option Char) : Reads Unit := do
  match c with
  | none => wrong "missing command"
  | some c =>
    let here := (← get).lines.size
    match simple? c with
    | some simple =>
      commandEnd
      add s simple
    | none =>
      match c with
      | '#' =>
        if s.first.isSome then wrong "comments don't accept any addresses"
        let _ ← readWhile (· != '\n')
      | '\x7b' =>
        modify fun r => { r with blocks := here :: r.blocks }
        add s (.block 0)
      | '\x7d' =>
        match (← get).blocks with
        | [] => wrong ("unexpected " ++ marked "\x7d")
        | start :: blocks =>
          if s.first.isSome then
            wrong (marked "\x7d" ++ " doesn't want any addresses")
          commandEnd
          modify fun r => { r with
            blocks
            lines := r.lines.modify start fun l => { l with command := .block here } }
      | ':' =>
        if s.first.isSome then wrong ": doesn't want any addresses"
        let name ← label
        if name = "" then wrong "\":\" lacks a label"
        modify fun r => { r with labels := r.labels ++ [(name, here)] }
      | 'a' => add s (.append (← commandText))
      | 'i' => add s (.insert (← commandText))
      | 'c' => add s (.change (← commandText))
      | 'b' | 't' | 'T' =>
        let name ← label
        if name != "" then modify fun r => { r with jumps := (here, name) :: r.jumps }
        add s (.jump (if c = 'b' then none else some (c == 't')) none)
      | 'q' | 'Q' =>
        if s.second.isSome then wrong "command only uses one address"
        let status ← optionalNumber
        commandEnd
        add s (.quit (c == 'q') (status.getD 0))
      | 'l' =>
        let width ← optionalNumber
        commandEnd
        add s (.list width)
      | 'r' => add s (.readFile (← fileNameArgument))
      | 'R' => add s (.readLine (← fileNameArgument))
      | 'w' => add s (.writeFile (← fileNameArgument))
      | 'W' => add s (.writeFirst (← fileNameArgument))
      | 's' => add s (← substitution)
      | 'y' => add s (← translation)
      | 'e' =>
        let _ ← readWhile isBlank
        let text ← readWhile (· != '\n')
        let _ ← next
        add s (.execute (String.ofList text))
      | 'v' =>
        let version ← label
        let least := (Text.fields (· == '.') version.toList).map fun ds =>
          (natural? (String.ofList ds)).getD 0
        match least with
        | major :: minor :: _ =>
          if 4 < major || (major = 4 && 9 < minor) then wrong "expected newer version of sed"
        | [major] => if 4 < major then wrong "expected newer version of sed"
        | [] => pure ()
      | c => wrong ("unknown command: " ++ marked (String.singleton c))

/-- Read the commands of all sources. -/
def commands : Nat → (first : Bool) → Reads Unit
  | 0, _ => return
  | n + 1, first => do
    let _ ← readWhile fun c => Text.isSpace c || c == ';'
    let s ← get
    match ← next with
    | none => if ← nextSource then commands n false
    | some '#' =>
      let comment ← readWhile (· != '\n')
      if first && s.count = 0 && comment = ['n'] then modify fun s => { s with quiet := true }
      commands n false
    | c =>
      let (sel, c) ← selector c
      command sel c
      commands n false

/-- A script. -/
structure Script where
  lines : Array Line
  quiet : Bool

/-- Read a script: its lines, and whether it asks that nothing be printed by itself. -/
def readScript (extended : Bool) (sources : List Source) : Except Complaint Script := do
  let fuel := (sources.map fun s => s.text.length + 2).foldl (· + ·) 2
  let body : Reads Unit := do
    let _ ← nextSource
    commands fuel true
    match (← get).blocks with
    | [] => pure ()
    | _ =>
      modify fun s => { s with count := 0 }
      wrong ("unmatched " ++ marked "\x7b")
  let (_, s) ← body.run { rest := [], later := sources, extended }
  let resolve (lines : Array Line) (j : Nat × String) : Except Complaint (Array Line) :=
    match s.labels.lookup j.2 with
    | none => .error ("can't find label for jump to " ++ marked j.2, 4)
    | some target =>
      .ok (lines.modify j.1 fun l =>
        match l.command with
        | .jump replaced _ => { l with command := .jump replaced (some target) }
        | _ => l)
  let lines ← s.jumps.foldlM resolve s.lines
  return ⟨lines, s.quiet⟩

end Isolation.Programs.Editor
