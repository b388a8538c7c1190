/-!
# TOML values

The values that a TOML document holds. Numbers with a fraction or an exponent, and points in time,
are kept as they are written: nothing is computed with them here.
-/

namespace Isolation.Toml

/-- A TOML value. -/
inductive Value where
  | text (s : String)
  | integer (n : Int)
  | float (written : String)
  | boolean (b : Bool)
  /-- A date, a time or both, in the canonical notation. -/
  | moment (written : String)
  | array (items : List Value)
  /-- A table; its keys are distinct. -/
  | table (entries : List (String × Value))
deriving Repr

end Isolation.Toml
