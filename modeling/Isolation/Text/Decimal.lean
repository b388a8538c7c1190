/-!
# Decimal numerals

Reading unsigned decimal numerals. The bounds of the machine words that a numeral has to fit into
are the business of whoever reads one: here a numeral of any length has a value.
-/

namespace Isolation.Text

/-- The numbers of 64 bits lie below this one. -/
def wordLimit : Nat := 18446744073709551616

/-- The value of one digit. -/
def digitValue (c : Char) : Nat := c.toNat - '0'.toNat

/-- The number that a row of digits denotes. -/
def decimalValue (cs : List Char) : Nat := cs.foldl (fun n c => 10 * n + digitValue c) 0

/-- A text that consists of ASCII digits. The empty text does. -/
def allDigits (cs : List Char) : Bool := cs.all Char.isDigit

/-- A numeral of at least one digit, read as a number below `limit`. -/
def decimal? (limit : Nat) (cs : List Char) : Option Nat :=
  if cs.isEmpty || !allDigits cs then none
  else
    let n := decimalValue cs
    if n < limit then some n else none

end Isolation.Text
