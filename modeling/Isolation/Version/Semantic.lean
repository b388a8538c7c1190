import Isolation.Text.Decimal
import Isolation.Text.Fields

/-!
# Semantic versions

The reading and the order of semantic versions, `major.minor.patch-pre+build`. Numbers fit 64 bits
and have no leading zero; identifiers are made of ASCII letters, digits and hyphens and are not
empty; a numeric pre-release identifier has no leading zero either (a numeric build identifier may).

The order is precedence refined to a total one: the three numbers; a release above its
pre-releases; the pre-release identifiers one by one, a numeric one below any other, numerically or
by code points, a longer list above its beginning; then the build identifiers in the same way, where
numerals of one value are told apart by their length (`0 < 00 < 1 < 01 < 001 < 2`).
-/

namespace Isolation

/-- A semantic version; an absent pre-release or build part is the empty list. -/
structure SemanticVersion where
  major : Nat
  minor : Nat
  patch : Nat
  /-- The pre-release identifiers. -/
  pre : List String
  /-- The build identifiers. -/
  build : List String
deriving DecidableEq, Repr

namespace SemanticVersion

/-! ## 1. Reading -/

/-- One number of the version core at the front of a text: digits without a leading zero. -/
def number? (cs : List Char) : Option (Nat × List Char) :=
  let digits := cs.takeWhile Char.isDigit
  if digits.head? == some '0' && digits.length != 1 then none
  else (Text.decimal? Text.wordLimit digits).map fun n => (n, cs.dropWhile Char.isDigit)

/-- The character expected next, dropped from the front of a text. -/
def expect? (c : Char) : List Char → Option (List Char)
  | [] => none
  | d :: r => if d = c then some r else none

/-- The characters of identifiers. -/
def isIdentifierChar (c : Char) : Bool := c.isAlphanum || c == '-'

/-- Dot-separated identifiers, each not empty and made of identifier characters. -/
def identifiers? (cs : List Char) : Option (List (List Char)) :=
  let parts := Text.fields (· == '.') cs
  if parts.all fun p => !p.isEmpty && p.all isIdentifierChar then some parts else none

/-- A numeral with a zero before other digits. -/
def hasLeadingZero (p : List Char) : Bool :=
  p.head? == some '0' && p.length != 1 && Text.allDigits p

/-- The parts after the version core: a pre-release after `-`, then a build after `+`. -/
def suffix? (rest : List Char) : Option (List String × List String) := do
  let beforePlus := rest.takeWhile (· != '+')
  let fromPlus := rest.dropWhile (· != '+')
  let pre ←
    match beforePlus with
    | [] => some []
    | '-' :: p => do
      let ids ← identifiers? p
      if ids.any hasLeadingZero then none else some (ids.map String.ofList)
    | _ => none
  let build ←
    match fromPlus with
    | [] => some []
    | _ :: b => (identifiers? b).map (·.map String.ofList)
  return (pre, build)

/-- The semantic version that a text denotes. -/
def parse? (cs : List Char) : Option SemanticVersion := do
  let (major, r) ← number? cs
  let r ← expect? '.' r
  let (minor, r) ← number? r
  let r ← expect? '.' r
  let (patch, r) ← number? r
  let (pre, build) ← suffix? r
  return { major, minor, patch, pre, build }

/-! ## 2. Order -/

/-- Whether an identifier is a numeral. -/
def isNumeral (s : String) : Bool := Text.allDigits s.toList

/-- The number that a numeral denotes; 0 for the other identifiers, whose texts decide. -/
def numeralValue (s : String) : Nat := if isNumeral s then Text.decimalValue s.toList else 0

/-- The length of a numeral; 0 for the other identifiers. -/
def numeralLength (s : String) : Nat := if isNumeral s then s.length else 0

/-- Identifiers in order: numerals below the others, numerals by value and then by length, the
    others by code points. -/
def compareIdentifier : String → String → Ordering :=
  compareLex (compareOn fun s => !isNumeral s)
    (compareLex (compareOn numeralValue) (compareLex (compareOn numeralLength) compare))

/-- The total order on semantic versions. -/
def compare : SemanticVersion → SemanticVersion → Ordering :=
  compareLex (compareOn major) <| compareLex (compareOn minor) <| compareLex (compareOn patch) <|
  compareLex (compareOn fun v => v.pre.isEmpty) <|
  compareLex (fun a b => List.compareLex compareIdentifier a.pre b.pre)
    (fun a b => List.compareLex compareIdentifier a.build b.build)

instance : Ord SemanticVersion := ⟨compare⟩

end SemanticVersion

end Isolation
