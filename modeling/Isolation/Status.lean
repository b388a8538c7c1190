import Isolation.Text.Column

/-!
# Status lines

What a run tells its user while it works: a label, right-aligned in a column of twelve characters,
and a message. Status lines go to the error stream, so that the output stream holds the answer
alone.
-/

namespace Isolation

/-- The width of the column of labels. -/
def labelWidth : Nat := 12

/-- A status line. -/
def statusLine (label message : String) : String :=
  Text.padLeft labelWidth label ++ " " ++ message ++ "\n"

/-- What a run has written. -/
structure Printed where
  /-- What was written to the output stream. -/
  out : String := ""
  /-- What was written to the error stream. -/
  err : String := ""
deriving DecidableEq, Repr

/-- What was written first, and what was written then. -/
def Printed.append (a b : Printed) : Printed := ⟨a.out ++ b.out, a.err ++ b.err⟩

instance : Append Printed := ⟨Printed.append⟩

end Isolation
