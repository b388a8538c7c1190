import Isolation.Shell.Arithmetic
import Isolation.Shell.Fields
import Isolation.Shell.Session
import Isolation.Sorting

/-!
# Expansion

What becomes of the words of a command. The parts of a word are expanded from left to right, and the
result is cut into fields, which may be patterns for the names of files. What is expanded in one
part, an assignment in braces say, holds for the parts behind it.

Commands whose output becomes part of a word are run by a function that is given. `depth` bounds how
deep words stand in words.
-/

namespace Isolation.Shell

open Machine

/-- What runs a command and gives back what it writes, without the line ends behind it. -/
abbrev Substitute := Command → Step String

/-- How a word is expanded. -/
structure Manner where
  /-- Whether the result is cut into fields. -/
  splits : Bool := false
  /-- Whether a tilde at the front stands for a directory. -/
  tilde : Bool := false
  /-- Whether a tilde behind a colon does, too. -/
  tildes : Bool := false

/-! ## 1. Parameters -/

/-- The letters of the options in the order in which they are shown. -/
def optionOrder : List Char :=
  ['u', 'b', 'a', 'C', 'E', 'V', 'v', 'x', 's', 'n', 'm', 'i', 'I', 'f', 'e']

/-- The value of a parameter other than the arguments as a whole. -/
def Session.parameter? (s : Session) (name : String) : Option String :=
  match name.toList with
  | ['?'] => some (toString s.status)
  | ['#'] => some (toString s.arguments.length)
  | ['$'] => some (toString s.rootProcess)
  | ['!'] => if s.background = 0 then none else some (toString s.background)
  | ['-'] => some (String.ofList (optionOrder.filter s.options.contains))
  | cs =>
    if cs.all Char.isDigit then
      match Text.decimalValue cs with
      | 0 => some s.name
      | n + 1 => s.arguments[n]?
    else s.value? name

/-- The separator that joins the arguments to one text. -/
def Session.joint (s : Session) : String :=
  match s.value? "IFS" with
  | none => " "
  | some ifs => String.ofList (ifs.toList.take 1)

/-- The atoms of the arguments as a whole. -/
def argumentAtoms (s : Session) (m : Manner) (name : String) (quoted : Bool) : List Atom :=
  let one (a : String) : List Atom :=
    (if quoted then [Atom.mark] else []) ++ atomsOf a quoted (!quoted && m.splits)
  let apart := if quoted then name = "@" && m.splits else m.splits
  if apart then
    match s.arguments with
    | [] => []
    | a :: as => one a ++ as.flatMap fun a => Atom.border :: one a
  else atomsOf (Text.joined s.joint s.arguments) quoted (!quoted && m.splits)

/-- The value of a parameter as atoms; `none` if it has none. -/
def parameterAtoms? (s : Session) (m : Manner) (name : String) (quoted : Bool) :
    Option (List Atom) :=
  if name = "@" || name = "*" then some (argumentAtoms s m name quoted)
  else (s.parameter? name).map fun v => atomsOf v quoted (!quoted && m.splits)

/-- The value of a parameter as one text. -/
def Session.whole? (s : Session) (name : String) : Option String :=
  if name = "@" || name = "*" then some (Text.joined s.joint s.arguments) else s.parameter? name

/-- Complain that a parameter has no value. -/
def raiseUnset {α : Type} (name : String) (tail : String := "") : Step α :=
  raise (name ++ ": parameter not set" ++ tail)

/-! ## 2. Tildes -/

/-- The directory that a name behind a tilde stands for. -/
def tildeDirectory? (s : Session) (name : String) : Option String :=
  if name = "" then s.value? "HOME" else if name = "root" then some "/root" else none

/-- A text with the tilde at its front expanded; `last` says that the word ends with the text. -/
def tildeAtoms (s : Session) (colons last : Bool) (text : String) : List Atom :=
  match text.toList with
  | '~' :: cs =>
    let stops (c : Char) : Bool := c == '/' || (colons && c == ':')
    let name := cs.takeWhile fun c => !stops c
    let behind := cs.drop name.length
    match tildeDirectory? s (String.ofList name), behind.isEmpty && !last with
    | some d, false => atomsOf d true false ++ atomsOf (String.ofList behind) false false
    | _, _ => atomsOf text false false
  | _ => atomsOf text false false

/-- A text in which tildes are expanded at the front, as far as that is asked for, and behind
    colons. -/
def tildesAtoms (s : Session) (front last : Bool) (text : String) : List Atom :=
  let pieces := (Text.fields (· == ':') text.toList).map String.ofList
  let count := pieces.length
  let atoms := pieces.zipIdx.map fun (piece, i) =>
    if i = 0 && !front then atomsOf piece false false
    else tildeAtoms s true (last || i + 1 < count) piece
  match atoms with
  | [] => []
  | a :: as => a ++ as.flatMap fun b => atomsOf ":" false false ++ b

/-! ## 3. Words -/

/-- Carry out the changes that an arithmetic expression makes. -/
def assignAll : List (String × Int) → Step Unit
  | [] => return
  | (name, n) :: r => do
    assign name (toString n)
    assignAll r

/-- The value of an arithmetic expression as a numeral. -/
def evaluateText (text : String) : Step String := do
  let s ← session
  let value (name : String) : Except Arithmetic.Defect (Option String) :=
    match s.value? name with
    | some v => .ok (some v)
    | none => if s.isSet 'u' then .error (.unset name) else .ok none
  match Arithmetic.evaluate value text with
  | .ok (n, changes) =>
    assignAll changes
    return toString n
  | .error d => raise (d.message text)

mutual

/-- Expand the parts of a word; `front` says whether nothing stands before them. -/
def expandParts (sub : Substitute) : Nat → Manner → (front : Bool) → Word → Step (List Atom)
  | 0, _, _, _ => throw .exhausted
  | _, _, _, [] => return []
  | n + 1, m, front, p :: ps => do
    let here ←
      match p with
      | .text text quoted =>
        if quoted then
          pure (if text = "" then [Atom.mark] else atomsOf text true false)
        else if m.tildes then pure (tildesAtoms (← session) (front && m.tilde) ps.isEmpty text)
        else if m.tilde && front then pure (tildeAtoms (← session) false ps.isEmpty text)
        else pure (atomsOf text false false)
      | .malformed => raise "Bad substitution"
      | .output c quoted => pure (atomsOf (← sub c) quoted (!quoted && m.splits))
      | .arithmetic inner quoted => do
        let text := textOfAtoms (← expandParts sub n {} true inner)
        pure (atomsOf (← evaluateText text) quoted (!quoted && m.splits))
      | .parameter name use quoted => expandParameter sub n m name use quoted
    match p with
    | .parameter _ (.final _) _ => return here
    | _ => return here ++ (← expandParts sub n m false ps)

/-- Expand a parameter. -/
def expandParameter (sub : Substitute) : Nat → Manner → String → Use → Bool → Step (List Atom)
  | 0, _, _, _, _ => throw .exhausted
  | n + 1, m, name, use, quoted => do
    let s ← session
    let value := parameterAtoms? s m name quoted
    let isNone (ifEmpty : Bool) : Bool :=
      match s.whole? name with
      | none => true
      | some v => ifEmpty && v = ""
    let inner : Manner := { m with tilde := true, tildes := false }
    let required : Step (List Atom) :=
      match value with
      | some v => return v
      | none => if s.isSet 'u' then raiseUnset name else return []
    match use with
    | .value => required
    | .final w => do
      if isNone true && s.isSet 'u' then raiseUnset name
      else return value.getD [] ++ (← expandParts sub n inner false w)
    | .length => do
      let _ ← required
      return atomsOf (toString ((s.whole? name).getD "").length) quoted (!quoted && m.splits)
    | .orElse ifEmpty w =>
      if isNone ifEmpty then expandParts sub n inner true w else return value.getD []
    | .instead ifEmpty w =>
      if isNone ifEmpty then return [] else expandParts sub n inner true w
    | .orSet ifEmpty w =>
      if isNone ifEmpty then
        let text := textOfAtoms (← expandParts sub n { tilde := true } true w)
        if isName name then assign name text
        else raise (name ++ ": bad variable name")
        return (parameterAtoms? (← session) m name quoted).getD []
      else return value.getD []
    | .orFail ifEmpty w =>
      if isNone ifEmpty then
        if w.isEmpty then raiseUnset name (if ifEmpty then " or null" else "")
        else
          let text := textOfAtoms (← expandParts sub n { tilde := true } true w)
          raise (name ++ ": " ++ text)
      else return value.getD []
    | .dropFront longest w => do
      let _ ← required
      let pattern := Wild.ofLetters (lettersOfAtoms (← expandParts sub n { tilde := true } true w))
      let text := (s.whole? name).getD ""
      return atomsOf (String.ofList (Wild.dropFront longest pattern text.toList)) quoted
        (!quoted && m.splits)
    | .dropBack longest w => do
      let _ ← required
      let pattern := Wild.ofLetters (lettersOfAtoms (← expandParts sub n { tilde := true } true w))
      let text := (s.whole? name).getD ""
      return atomsOf (String.ofList (Wild.dropBack longest pattern text.toList)) quoted
        (!quoted && m.splits)

end

/-! ## 4. Names of files -/

/-- A field cut at its slashes. -/
def pieces (f : Field) : List Field :=
  match f with
  | [] => [[]]
  | l :: r =>
    if l.char = '/' then [] :: pieces r
    else
      match pieces r with
      | [] => [[l]]
      | p :: ps => (l :: p) :: ps

/-- The names in a directory, as byte texts. -/
def namesIn (v : Files.Volume) (path : String) : List String :=
  match v.readDirectory (Text.textOfOctets path) with
  | .ok entries => "." :: ".." :: entries.map fun e => Text.octetsOf e.1
  | .error _ => []

/-- Whether a path leads to a directory. -/
def leadsToDirectory (v : Files.Volume) (path : String) : Bool :=
  match v.open? (Text.textOfOctets path) with
  | .ok (.directory _) => true
  | _ => false

/-- Whether there is something of a path. -/
def isThere (v : Files.Volume) (path : String) : Bool :=
  match v.placeOf (Text.textOfOctets path) false with
  | .ok (_, some _) => true
  | _ => false

/-- The paths that pieces stand for behind a beginning. -/
def matching (v : Files.Volume) (before : String) : List Field → List String
  | [] => if isThere v before then [before] else []
  | p :: ps =>
    let slash := if ps.isEmpty then "" else "/"
    if Wild.isMeta p then
      let pattern := Wild.ofLetters p
      let dotted := p.head?.any fun l => l.char == '.'
      let names := (namesIn v (if before = "" then "." else before)).filter fun name =>
        (dotted || !Text.startsWith name ".") && Wild.fits pattern name.toList
      names.flatMap fun name =>
        if ps.isEmpty then [before ++ name]
        else if leadsToDirectory v (before ++ name) then matching v (before ++ name ++ slash) ps
        else []
    else matching v (before ++ textOfLetters p ++ slash) ps

/-- The paths that a field stands for, in ascending order; the field itself if it stands for none or
    is no pattern. -/
def pathsOf (v : Files.Volume) (f : Field) : List String :=
  if Wild.isMeta f then
    match sortedBy compare (matching v "" (pieces f)) with
    | [] => [textOfLetters f]
    | paths => paths
  else [textOfLetters f]

/-! ## 5. What commands are made of -/

/-- How deep words may stand in words. -/
def wordDepth : Nat := 100000

/-- The fields of a word, with the names of files that they stand for. -/
def expandFields (sub : Substitute) (w : Word) : Step (List String) := do
  let atoms ← expandParts sub wordDepth { splits := true, tilde := true } true w
  let s ← session
  let found := fields s.separators atoms
  if s.isSet 'f' then return found.map textOfLetters
  else
    let v : Files.Volume := ⟨(← get).world.root, s.process.current⟩
    return found.flatMap (pathsOf v)

/-- The fields of some words. -/
def expandAll (sub : Substitute) : List Word → Step (List String)
  | [] => return []
  | w :: ws => do return (← expandFields sub w) ++ (← expandAll sub ws)

/-- A word as one text. -/
def expandText (sub : Substitute) (w : Word) : Step String :=
  return textOfAtoms (← expandParts sub wordDepth { tilde := true } true w)

/-- The body of a here-document. -/
def expandDocument (sub : Substitute) (w : Word) : Step String :=
  return textOfAtoms (← expandParts sub wordDepth {} true w)

/-- The value of an assignment. -/
def expandValue (sub : Substitute) (w : Word) : Step String :=
  return textOfAtoms (← expandParts sub wordDepth { tilde := true, tildes := true } true w)

/-- A word as a pattern. -/
def expandPattern (sub : Substitute) (w : Word) : Step (List Wild) :=
  return Wild.ofLetters (lettersOfAtoms (← expandParts sub wordDepth { tilde := true } true w))

end Isolation.Shell
