import Isolation.Text.Decimal

/-!
# The lexical rules of TOML

Readers for the pieces of a TOML document below its values: layout, comments, strings and keys. A
reader takes a text and gives what it read and what is left, or nothing when the text does not begin
with such a piece. Control characters other than the tab are allowed nowhere, and a line ends with a
line feed, with or without one carriage return before it.
-/

namespace Isolation.Toml

/-- What is read at the front of a text, and what is left of it. -/
abbrev Reader (α : Type) := List Char → Option (α × List Char)

/-! ## 1. Layout -/

/-- The white space inside a line. -/
def isSpace (c : Char) : Bool := c == ' ' || c == '\t'

/-- A character that may stand in comments and literal strings: no control character but the tab. -/
def isPrintable (c : Char) : Bool := c == '\t' || (0x20 ≤ c.toNat && c.toNat != 0x7F)

/-- A text without its leading spaces. -/
def skipSpaces (cs : List Char) : List Char := cs.dropWhile isSpace

/-- The end of a line at the front of a text. -/
def lineEnd? : List Char → Option (List Char)
  | '\n' :: r => some r
  | '\r' :: '\n' :: r => some r
  | _ => none

/-- What may follow a value or a header on its line: spaces, a comment, and the end of the line or
    of the text. -/
def restOfLine? (cs : List Char) : Option (List Char) :=
  match skipSpaces cs with
  | [] => some []
  | '#' :: r =>
    match r.dropWhile isPrintable with
    | [] => some []
    | r => lineEnd? r
  | r => lineEnd? r

/-- Spaces, line ends and whole comments at the front of a text, skipped. -/
def skipLayout (inComment : Bool) : List Char → Option (List Char)
  | [] => some []
  | '\n' :: r => skipLayout false r
  | '\r' :: '\n' :: r => skipLayout false r
  | c :: r =>
    if inComment then if isPrintable c then skipLayout true r else none
    else if c = '#' then skipLayout true r
    else if isSpace c then skipLayout false r
    else some (c :: r)

/-! ## 2. Strings -/

/-- The value of a hexadecimal digit. -/
def hexValue? (c : Char) : Option Nat :=
  if c.isDigit then some (c.toNat - 48)
  else if 'a' ≤ c && c ≤ 'f' then some (c.toNat - 87)
  else if 'A' ≤ c && c ≤ 'F' then some (c.toNat - 55)
  else none

/-- The number that hexadecimal digits denote. -/
def hexNumber? : List Char → Option Nat :=
  List.foldlM (fun n c => (hexValue? c).map (16 * n + ·)) 0

/-- The character of a code point that is given in hexadecimal digits. -/
def codePoint? (digits : List Char) : Option Char :=
  (hexNumber? digits).bind fun n => if n.isValidChar then some (Char.ofNat n) else none

/-- The character that a letter after a backslash stands for. -/
def escape? (c : Char) : Option Char :=
  if c = 'b' then some (Char.ofNat 8)
  else if c = 't' then some '\t'
  else if c = 'n' then some '\n'
  else if c = 'f' then some (Char.ofNat 12)
  else if c = 'r' then some '\r'
  else if c = '"' then some '"'
  else if c = '\\' then some '\\'
  else none

/-- A character put before what was read after it. -/
def before (c : Char) (r : Option (List Char × List Char)) : Option (List Char × List Char) :=
  r.map fun p => (c :: p.1, p.2)

/-- The rest of a basic string, up to its closing quote. -/
def basicRest : Reader (List Char)
  | [] => none
  | '"' :: r => some ([], r)
  | '\\' :: 'u' :: a :: b :: c :: d :: r =>
    (codePoint? [a, b, c, d]).bind fun x => before x (basicRest r)
  | '\\' :: 'U' :: a :: b :: c :: d :: e :: f :: g :: h :: r =>
    (codePoint? [a, b, c, d, e, f, g, h]).bind fun x => before x (basicRest r)
  | '\\' :: c :: r => (escape? c).bind fun x => before x (basicRest r)
  | c :: r => if c ≠ '\\' && isPrintable c then before c (basicRest r) else none

/-- The rest of a literal string, up to its closing quote. -/
def literalRest : Reader (List Char)
  | [] => none
  | '\'' :: r => some ([], r)
  | c :: r => if isPrintable c then before c (literalRest r) else none

/-- Whether a text goes on with spaces and the end of a line. -/
def endsLine (cs : List Char) : Bool := (lineEnd? (skipSpaces cs)).isSome

/-- The rest of a basic string over several lines. Up to two quotes may stand before the three that
    close it. A backslash at the end of a line swallows the white space up to the next character;
    `swallowing` says that this is going on. -/
def longBasicRest (swallowing : Bool) : Reader (List Char)
  | [] => none
  | '\n' :: r => if swallowing then longBasicRest true r else before '\n' (longBasicRest false r)
  | '\r' :: '\n' :: r =>
    if swallowing then longBasicRest true r else before '\n' (longBasicRest false r)
  | '"' :: '"' :: '"' :: '"' :: '"' :: r => some (['"', '"'], r)
  | '"' :: '"' :: '"' :: '"' :: r => some (['"'], r)
  | '"' :: '"' :: '"' :: r => some ([], r)
  | '\\' :: 'u' :: a :: b :: c :: d :: r =>
    (codePoint? [a, b, c, d]).bind fun x => before x (longBasicRest false r)
  | '\\' :: 'U' :: a :: b :: c :: d :: e :: f :: g :: h :: r =>
    (codePoint? [a, b, c, d, e, f, g, h]).bind fun x => before x (longBasicRest false r)
  | '\\' :: c :: r =>
    if endsLine (c :: r) then longBasicRest true (c :: r)
    else (escape? c).bind fun x => before x (longBasicRest false r)
  | c :: r =>
    if swallowing && isSpace c then longBasicRest true r
    else if c ≠ '\\' && isPrintable c then before c (longBasicRest false r)
    else none

/-- The rest of a literal string over several lines. Up to two quotes may stand before the three
    that close it. -/
def longLiteralRest : Reader (List Char)
  | [] => none
  | '\n' :: r => before '\n' (longLiteralRest r)
  | '\r' :: '\n' :: r => before '\n' (longLiteralRest r)
  | '\'' :: '\'' :: '\'' :: '\'' :: '\'' :: r => some (['\'', '\''], r)
  | '\'' :: '\'' :: '\'' :: '\'' :: r => some (['\''], r)
  | '\'' :: '\'' :: '\'' :: r => some ([], r)
  | c :: r => if isPrintable c then before c (longLiteralRest r) else none

/-- A line end right behind the opening quotes is not part of a string. -/
def dropFirstLineEnd (cs : List Char) : List Char := (lineEnd? cs).getD cs

/-- A string on one line. -/
def shortString : Reader (List Char)
  | '"' :: r => basicRest r
  | '\'' :: r => literalRest r
  | _ => none

/-- A string. -/
def string : Reader (List Char)
  | '"' :: '"' :: '"' :: r => longBasicRest false (dropFirstLineEnd r)
  | '\'' :: '\'' :: '\'' :: r => longLiteralRest (dropFirstLineEnd r)
  | cs => shortString cs

/-! ## 3. Keys -/

/-- The characters of bare keys. -/
def isBareKeyChar (c : Char) : Bool := c.isAlphanum || c == '_' || c == '-'

/-- One key. -/
def key (cs : List Char) : Option (String × List Char) :=
  match cs.takeWhile isBareKeyChar with
  | [] => (shortString cs).map fun p => (String.ofList p.1, p.2)
  | name => some (String.ofList name, cs.dropWhile isBareKeyChar)

/-- A path nests at most so many tables, and a value so many arrays. -/
def nestingLimit : Nat := 79

/-- Keys between dots, with spaces around each; at most so many of them. -/
def keyPathOf : Nat → Reader (List String)
  | 0, _ => none
  | n + 1, cs =>
    match key (skipSpaces cs) with
    | none => none
    | some (k, r) =>
      match skipSpaces r with
      | '.' :: r => (keyPathOf n r).map fun p => (k :: p.1, p.2)
      | r => some ([k], r)

/-- A dotted key. -/
def keyPath : Reader (List String) := keyPathOf nestingLimit

end Isolation.Toml
