/-!
# Columns

Padding a text to a width. Widths count characters (code points), and a text that is already as
wide as its column is left alone.
-/

namespace Isolation.Text

/-- The text with spaces after it, to a width. -/
def padRight (width : Nat) (s : String) : String :=
  s ++ String.ofList (List.replicate (width - s.length) ' ')

/-- The text with spaces before it, to a width. -/
def padLeft (width : Nat) (s : String) : String :=
  String.ofList (List.replicate (width - s.length) ' ') ++ s

end Isolation.Text
