/-!
# Sets of characters

What one character may be among: ranges, and classes that have names. Classes are those of ASCII,
so that in a byte text no byte beyond ASCII belongs to one.
-/

namespace Isolation.Text

/-- Some characters. -/
inductive Member where
  | range (low high : Char)
  | named (holds : Char → Bool)

/-- Whether a character is a member. -/
def Member.holds (c : Char) : Member → Bool
  | range low high => low ≤ c && c ≤ high
  | named p => p c

/-- A blank or the end of a line, of a column or of a page. -/
def isSpace (c : Char) : Bool := c == ' ' || (9 ≤ c.toNat && c.toNat ≤ 13)

/-- A character that can be printed and is no letter, digit or blank. -/
def isPunctuation (c : Char) : Bool := 33 ≤ c.toNat && c.toNat ≤ 126 && !c.isAlphanum

/-- A character that can be printed. -/
def isPrintable (c : Char) : Bool := 32 ≤ c.toNat && c.toNat ≤ 126

/-- A hexadecimal digit. -/
def isHexDigit (c : Char) : Bool := c.isDigit || ('a' ≤ c && c ≤ 'f') || ('A' ≤ c && c ≤ 'F')

/-- The classes of characters that have names. -/
def namedClass? : String → Option (Char → Bool)
  | "alpha" => some Char.isAlpha
  | "digit" => some Char.isDigit
  | "alnum" => some Char.isAlphanum
  | "upper" => some Char.isUpper
  | "lower" => some Char.isLower
  | "space" => some isSpace
  | "blank" => some fun c => c == ' ' || c == '\t'
  | "punct" => some isPunctuation
  | "print" => some isPrintable
  | "graph" => some fun c => isPrintable c && c != ' '
  | "cntrl" => some fun c => c.toNat < 32 || c.toNat == 127
  | "xdigit" => some isHexDigit
  | _ => none

/-- Whether a character is among some members, or, if that is negated, among none. -/
def isAmong (negated : Bool) (members : List Member) (c : Char) : Bool :=
  (members.any fun m => m.holds c) != negated

/-- Whether a character may stand in a word: a letter, a digit or an underscore. -/
def isWordChar (c : Char) : Bool := c.isAlphanum || c == '_'

end Isolation.Text
