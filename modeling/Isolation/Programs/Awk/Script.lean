import Isolation.Text.Charset
import Isolation.Text.Fields

/-!
# Scripts of `awk`

A script is a row of rules, each of which says for which records something is done, and of
functions. Here are its trees, and the words that it is written with.
-/

namespace Isolation.Programs.Awk

/-! ## 1. Trees -/

mutual

/-- An expression. -/
inductive Expr where
  | number (digits : String)
  | text (s : String)
  /-- Whether a regular expression is found in the record. -/
  | pattern (source : String)
  | name (n : String)
  | field (number : Expr)
  | element (array : String) (index : List Expr)
  /-- A value for a name, a field or an element; an operator may combine it with the old one. -/
  | assign (op : Option Char) (target value : Expr)
  | choice (condition yes no : Expr)
  | and (a b : Expr)
  | or (a b : Expr)
  | contains (index : List Expr) (array : String)
  | found (negated : Bool) (text pattern : Expr)
  | compare (op : String) (a b : Expr)
  | join (a b : Expr)
  | reckon (op : Char) (a b : Expr)
  | minus (a : Expr)
  | plus (a : Expr)
  | not (a : Expr)
  /-- One more or one less, before or behind the use of the value. -/
  | step (first up : Bool) (target : Expr)
  | call (name : String) (args : List Expr)
  | builtin (name : String) (args : List Expr)
  /-- The next line of the input, of a file or of what a command prints. -/
  | line (target : Option Expr) (source : Option (Bool × Expr))
  | group (es : List Expr)

end

/-- Where something is printed to. -/
inductive Goal where
  | output
  | file (path : Expr) (appends : Bool)
  | command (text : Expr)

/-- A statement. -/
inductive Statement where
  | nothing
  | block (ss : List Statement)
  | expr (e : Expr)
  | print (es : List Expr) (goal : Goal)
  | format (es : List Expr) (goal : Goal)
  | branch (condition : Expr) (yes no : Statement)
  | loop (condition : Expr) (body : Statement)
  | loopBehind (body : Statement) (condition : Expr)
  | count (first : Statement) (condition : Option Expr) (step body : Statement)
  | each (name array : String) (body : Statement)
  | leave
  | skip
  | next
  | nextFile
  | exit (status : Option Expr)
  | give (value : Option Expr)
  | remove (array : String) (index : List Expr)

/-- For which records something is done. -/
inductive Trigger where
  | start
  | finish
  | always
  | whenever (condition : Expr)
  /-- From one record to another. -/
  | range (first last : Expr)

/-- A function. -/
structure Function where
  params : List String
  body : Statement

/-- A script. -/
structure Script where
  rules : List (Trigger × Statement) := []
  functions : List (String × Function) := []

/-! ## 2. Words -/

/-- A word of a script. -/
inductive Word where
  | number (digits : String)
  | text (s : String)
  | pattern (source : String)
  | name (n : String)
  /-- A name right before an opening parenthesis. -/
  | call (n : String)
  | builtin (n : String)
  | keyword (n : String)
  | sign (s : String)
  | newline
deriving DecidableEq, Repr

/-- The words with a meaning of their own. -/
def keywords : List String :=
  ["BEGIN", "END", "function", "func", "if", "else", "while", "for", "do", "break", "continue",
    "next", "nextfile", "exit", "return", "delete", "in", "getline", "print", "printf"]

/-- The functions that come with the language. -/
def builtins : List String :=
  ["length", "substr", "index", "split", "sub", "gsub", "match", "sprintf", "sin", "cos", "atan2",
    "exp", "log", "sqrt", "int", "rand", "srand", "tolower", "toupper", "system", "close", "fflush"]

/-- The signs of two characters. -/
def longSigns : List String :=
  ["&&", "||", "++", "--", "+=", "-=", "*=", "/=", "%=", "^=", "==", "<=", ">=", "!=", "!~", ">>"]

/-- The signs of one character. -/
def shortSigns : List Char := "\x7b\x7d()[];,+-*/%^!<>|?:~$=".toList

/-- A word as a complaint shows it. -/
def Word.shown : Word → String
  | number d => d
  | text s => "\"" ++ s ++ "\""
  | pattern s => "/" ++ s ++ "/"
  | name n | call n | builtin n | keyword n => n
  | sign s => s
  | newline => "end of line"

/-- Whether a slash behind a word divides. -/
def Word.endsOperand : Word → Bool
  | number _ | text _ | pattern _ | name _ => true
  | builtin n => n == "length"
  | sign s => s == ")" || s == "]" || s == "$" || s == "++" || s == "--"
  | _ => false

/-- The value of octal digits. -/
def octalValue (cs : List Char) : Nat := cs.foldl (fun n c => 8 * n + (c.toNat - '0'.toNat)) 0

/-- The character of an escape behind its backslash, and what follows. -/
def escape? : List Char → Option (Char × List Char)
  | [] => none
  | c :: r =>
    match c with
    | 'n' => some ('\n', r)
    | 't' => some ('\t', r)
    | 'r' => some ('\r', r)
    | '\\' => some ('\\', r)
    | '"' => some ('"', r)
    | 'a' => some (Char.ofNat 7, r)
    | 'b' => some (Char.ofNat 8, r)
    | 'f' => some (Char.ofNat 12, r)
    | 'v' => some (Char.ofNat 11, r)
    | c =>
      let ds := ((c :: r).take 3).takeWhile fun d => '0' ≤ d && d ≤ '7'
      if ds.isEmpty then none
      else some (Char.ofNat (octalValue ds % 256), (c :: r).drop ds.length)

/-- A text with its escapes read. -/
def unescaped : Nat → List Char → List Char
  | 0, cs => cs
  | _, [] => []
  | n + 1, '\\' :: r =>
    match escape? r with
    | some (c, rest) => c :: unescaped n rest
    | none =>
      match r with
      | '\n' :: rest => unescaped n rest
      | _ => '\\' :: unescaped n r
  | n + 1, c :: r => c :: unescaped n r

/-- A text with its escapes read. -/
def readEscapes (s : String) : String := String.ofList (unescaped (s.length + 1) s.toList)

/-- The characters up to one that ends a text and stands behind no backslash, and what follows. -/
def upTo (ending : Char) : List Char → Option (List Char × List Char)
  | [] => none
  | '\\' :: c :: r => (upTo ending r).map fun p => ('\\' :: c :: p.1, p.2)
  | c :: r =>
    if c = ending then some ([], r)
    else if c = '\n' then none
    else (upTo ending r).map fun p => (c :: p.1, p.2)

/-- The digits of a number at the front of a text, and what follows. -/
def numeral (cs : List Char) : List Char × List Char :=
  let whole := cs.takeWhile Char.isDigit
  let rest := cs.drop whole.length
  let (point, rest) :=
    match rest with
    | '.' :: r => ('.' :: r.takeWhile Char.isDigit, r.dropWhile Char.isDigit)
    | r => ([], r)
  match rest with
  | e :: r =>
    if e == 'e' || e == 'E' then
      let (sign, ds) :=
        match r with
        | '-' :: ds => (['-'], ds)
        | '+' :: ds => (['+'], ds)
        | ds => ([], ds)
      let digits := ds.takeWhile Char.isDigit
      if digits.isEmpty then (whole ++ point, rest)
      else (whole ++ point ++ e :: sign ++ digits, ds.drop digits.length)
    else (whole ++ point, rest)
  | [] => (whole ++ point, [])

/-- The word of a name. -/
def nameWord (n : String) (rest : List Char) : Word :=
  if keywords.contains n then .keyword (if n = "func" then "function" else n)
  else if builtins.contains n then .builtin n
  else if rest.head? == some '(' then .call n
  else .name n

/-- A complaint with the number of a line. -/
abbrev Complaint := Nat × String

/-- The words of a script, with the numbers of their lines. -/
def words : Nat → (line : Nat) → (divides : Bool) → List Char → Except Complaint (List (Nat × Word))
  | 0, line, _, _ => .error (line, "script too long")
  | _, _, _, [] => .ok []
  | n + 1, line, divides, c :: r =>
    let add (w : Word) (rest : List Char) : Except Complaint (List (Nat × Word)) := do
      return (line, w) :: (← words n line w.endsOperand rest)
    if c = '\n' then do
      return (line, .newline) :: (← words n (line + 1) false r)
    else if c = ' ' || c = '\t' || c = '\r' then words n line divides r
    else if c = '#' then words n line divides (r.dropWhile (· != '\n'))
    else if c = '\\' && r.head? == some '\n' then words n (line + 1) divides (r.drop 1)
    else if c = '\\' && r.take 2 == ['\r', '\n'] then words n (line + 1) divides (r.drop 2)
    else if c = '"' then
      match upTo '"' r with
      | none => .error (line, "runaway string constant \"" ++ String.ofList (r.take 10) ++ " ...")
      | some (body, rest) => add (.text (readEscapes (String.ofList body))) rest
    else if c = '/' && !divides then
      match upTo '/' r with
      | none => .error (line, "runaway regular expression /" ++ String.ofList (r.take 10) ++ " ...")
      | some (body, rest) => add (.pattern (String.ofList body)) rest
    else if c.isDigit || (c = '.' && r.head?.any Char.isDigit) then
      let (ds, rest) := numeral (c :: r)
      add (.number (String.ofList ds)) rest
    else if Text.isWordChar c then
      let name := (c :: r).takeWhile Text.isWordChar
      let rest := (c :: r).drop name.length
      add (nameWord (String.ofList name) rest) rest
    else
      match r with
      | d :: rest =>
        let two := String.ofList [c, d]
        if longSigns.contains two then add (.sign two) rest
        else if c = '^' && d = '=' then add (.sign "^=") rest
        else if shortSigns.contains c then add (.sign (String.singleton c)) r
        else .error (line, "unexpected character '" ++ String.singleton c ++ "'")
      | [] =>
        if shortSigns.contains c then add (.sign (String.singleton c)) r
        else .error (line, "unexpected character '" ++ String.singleton c ++ "'")

end Isolation.Programs.Awk
