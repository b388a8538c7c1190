import Isolation.Shell.Wildcard

/-!
# Splitting into fields

An expanded word is a row of atoms: letters, of which it is known whether they come from an
expansion that may be split, the marks of quotes, and the borders between arguments. `fields` cuts a
row into fields at the characters of a separator text.

Blanks among the separators stand together for one border, and mean nothing at the ends; any other
separator is a border of its own, and the blanks around it belong to it. **A field is empty only
where quotes stand in it or where two such separators meet.**
-/

namespace Isolation.Shell

/-- A part of an expanded word. -/
inductive Atom where
  | letter (l : Letter) (splits : Bool)
  /-- Quotes that may hold nothing. -/
  | mark
  /-- The border between two arguments. -/
  | border
deriving DecidableEq, Repr

/-- The atoms of a text. -/
def atomsOf (s : String) (quoted splits : Bool) : List Atom :=
  s.toList.map fun c => .letter ⟨c, quoted⟩ splits

/-- The letters of a row of atoms. -/
def lettersOfAtoms (as : List Atom) : List Letter :=
  as.filterMap fun
    | .letter l _ => some l
    | _ => none

/-- The text of a row of atoms. -/
def textOfAtoms (as : List Atom) : String := textOfLetters (lettersOfAtoms as)

/-- A field. -/
abbrev Field := List Letter

/-- What lies before the next atom. -/
inductive Before where
  /-- A field, reversed. -/
  | field (ls : List Letter)
  /-- Blanks behind a field. -/
  | blanks
  /-- Nothing, or a border. -/
  | border

/-- Whether a separator is a blank. -/
def isBlankSeparator (c : Char) : Bool := c == ' ' || c == '\t' || c == '\n'

/-- Cut a row of atoms, the fields before it being given reversed. -/
def cutFields (separators : List Char) (done : List Field) (before : Before) :
    List Atom → List Field
  | [] =>
    match before with
    | .field ls => (ls.reverse :: done).reverse
    | _ => done.reverse
  | .letter l splits :: as =>
    if splits && separators.contains l.char then
      match before, isBlankSeparator l.char with
      | .field ls, true => cutFields separators (ls.reverse :: done) .blanks as
      | .field ls, false => cutFields separators (ls.reverse :: done) .border as
      | before, true => cutFields separators done before as
      | .blanks, false => cutFields separators done .border as
      | .border, false => cutFields separators ([] :: done) .border as
    else
      match before with
      | .field ls => cutFields separators done (.field (l :: ls)) as
      | _ => cutFields separators done (.field [l]) as
  | .mark :: as =>
    match before with
    | .field ls => cutFields separators done (.field ls) as
    | _ => cutFields separators done (.field []) as
  | .border :: as =>
    match before with
    | .field ls => cutFields separators (ls.reverse :: done) .border as
    | _ => cutFields separators done .border as

/-- The fields of a row of atoms. -/
def fields (separators : String) (as : List Atom) : List Field :=
  cutFields separators.toList [] .border as

end Isolation.Shell
