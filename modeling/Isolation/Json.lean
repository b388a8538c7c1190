/-!
# JSON texts

The JSON that reports are written in: texts, truth values, arrays and objects, indented by two
spaces a level. Objects keep the order of their fields. Only the quote, the backslash and the
control characters below U+0020 are escaped; every other character stands for itself.
-/

namespace Isolation

/-- A JSON value of the kinds that reports hold. -/
inductive Json where
  | text (s : String)
  | bool (b : Bool)
  | array (items : List Json)
  | object (fields : List (String × Json))

namespace Json

/-- A lower-case hexadecimal digit. -/
def hexDigit (n : Nat) : Char := if n < 10 then Char.ofNat (48 + n) else Char.ofNat (87 + n)

/-- One character inside a JSON string. -/
def escaped (c : Char) : List Char :=
  if c = '"' then ['\\', '"']
  else if c = '\\' then ['\\', '\\']
  else if c = '\n' then ['\\', 'n']
  else if c = '\r' then ['\\', 'r']
  else if c = '\t' then ['\\', 't']
  else if c.toNat = 8 then ['\\', 'b']
  else if c.toNat = 12 then ['\\', 'f']
  else if c.toNat < 32 then
    ['\\', 'u', '0', '0', hexDigit (c.toNat / 16), hexDigit (c.toNat % 16)]
  else [c]

/-- A text between quotes. -/
def quoted (s : String) : String :=
  "\"" ++ String.ofList (s.toList.flatMap escaped) ++ "\""

/-- The line break before something that stands `depth` levels deep. -/
def lineBreak (depth : Nat) : String := "\n" ++ String.ofList (List.replicate (2 * depth) ' ')

mutual

/-- The text of a value that stands `depth` levels deep. -/
def pretty (depth : Nat) : Json → String
  | text s => quoted s
  | bool true => "true"
  | bool false => "false"
  | array [] => "[]"
  | array (x :: xs) => "[" ++ prettyItems (depth + 1) (x :: xs) ++ lineBreak depth ++ "]"
  | object [] => "\x7b\x7d"
  | object (f :: fs) =>
    "\x7b" ++ prettyFields (depth + 1) (f :: fs) ++ lineBreak depth ++ "\x7d"

/-- The items of an array, each on a line of its own. -/
def prettyItems (depth : Nat) : List Json → String
  | [] => ""
  | [x] => lineBreak depth ++ pretty depth x
  | x :: y :: r => lineBreak depth ++ pretty depth x ++ "," ++ prettyItems depth (y :: r)

/-- The fields of an object, each on a line of its own. -/
def prettyFields (depth : Nat) : List (String × Json) → String
  | [] => ""
  | [(k, x)] => lineBreak depth ++ quoted k ++ ": " ++ pretty depth x
  | (k, x) :: f :: r =>
    lineBreak depth ++ quoted k ++ ": " ++ pretty depth x ++ "," ++ prettyFields depth (f :: r)

end

/-- A value as a text of its own. -/
def render (j : Json) : String := pretty 0 j

/-- The texts of a list as an array. -/
def texts (ss : List String) : Json := array (ss.map text)

end Json

end Isolation
