/-!
# Glob patterns

The reading of glob patterns into pieces, each of which stands for a run of bytes of a path.

* `?` is one byte and `*` any run of bytes, the slash included; `\c` is `c` itself.
* `[...]` is one byte of a class, `[!...]` and `[^...]` one byte outside it. A `]` or `-` at the
  front is itself, `a-b` is a range, a `-` at the end is itself.
* `{a,b}` is one of some alternatives, which may be nested; outside of braces a comma is itself.
* `**` between slashes, at the front or at the end spans directories; elsewhere it is `*` twice.

A pattern is read in one pass over its characters (`Pattern.read`). The state of the pass holds the
alternative being read and the groups around it, so the piece before a `**` is always the last one
of the current alternative.
-/

namespace Isolation.Glob

/-- Why a pattern is refused. -/
inductive Defect where
  | unclosedClass
  | invalidRange (low high : Char)
  | unopenedGroup
  | unclosedGroup
  | danglingEscape
deriving DecidableEq, Repr

/-- The wording of a defect. -/
def Defect.message : Defect → String
  | .unclosedClass => "unclosed character class; missing ']'"
  | .invalidRange low high =>
    let low := String.singleton low
    let high := String.singleton high
    s!"invalid range; '{low}' > '{high}'"
  | .unopenedGroup =>
    "unopened alternate group; missing '\x7b' (maybe escape '\x7d' with '[\x7d]'?)"
  | .unclosedGroup =>
    "unclosed alternate group; missing '\x7d' (maybe escape '\x7b' with '[\x7b]'?)"
  | .danglingEscape => "dangling '\\'"

/-- What a part of a pattern stands for. -/
inductive Piece where
  /-- One given byte. -/
  | byte (b : UInt8)
  /-- Any one byte. -/
  | any
  /-- Any run of bytes. -/
  | run
  /-- One byte in some ranges, or outside of them. -/
  | class (negated : Bool) (ranges : List (UInt8 × UInt8))
  /-- Nothing, a slash, or anything that ends in a slash: `**` at the front. -/
  | leadingDirectories
  /-- A slash, or anything between two slashes: `**` between slashes. -/
  | innerDirectories
  /-- A slash and anything after it: `**` at the end. -/
  | trailingAnything
  /-- One of some alternatives. -/
  | oneOf (alternatives : List (List Piece))
deriving Repr

/-- The pieces of a pattern in order. -/
abbrev Pattern := List Piece

namespace Pattern

/-- A character as its bytes. -/
def literal (c : Char) : List Piece := (String.utf8EncodeChar c).map Piece.byte

/-- A range of characters as ranges of bytes. The bytes of a character are members one by one, and
    the range runs from the last byte of its low end to the first byte of its high end. -/
def byteRanges (low high : Char) : List (UInt8 × UInt8) :=
  let a := String.utf8EncodeChar low
  let b := String.utf8EncodeChar high
  if low = high then a.map fun x => (x, x)
  else
    (a.dropLast.map fun x => (x, x)) ++ [(a.getLastD 0, b.headD 0)] ++ (b.tail.map fun x => (x, x))

/-- A group being read: the alternatives before the current one, and what stood before the group. -/
structure Group where
  alternatives : List (List Piece)
  before : List Piece

/-- A class being read: whether it is negated, its ranges so far, and whether a `-` was read that
    may make a range. -/
structure Class where
  negated : Bool
  ranges : List (Char × Char) := []
  first : Bool := true
  dash : Bool := false

/-- What the next character is part of. -/
inductive Place where
  | plain
  | escape
  | inClass (c : Class)

/-- The state of reading. -/
structure Reading where
  /-- The pieces of the current alternative. -/
  current : List Piece := []
  /-- The groups around it, the innermost first. -/
  groups : List Group := []
  place : Place := .plain
  /-- The character read before. -/
  before : Option Char := none

namespace Reading

/-- One more piece in the current alternative. -/
def push (r : Reading) (ps : List Piece) : Reading := { r with current := r.current ++ ps }

/-- The class with one more character. -/
def addToClass (k : Class) (c : Char) : Except Defect Class :=
  if k.dash then
    match k.ranges.getLast? with
    | some (low, _) =>
      if c < low then .error (.invalidRange low c)
      else .ok { k with ranges := k.ranges.dropLast ++ [(low, c)], first := false, dash := false }
    | none => .ok { k with ranges := [(c, c)], first := false, dash := false }
  else .ok { k with ranges := k.ranges ++ [(c, c)], first := false }

/-- The piece of a class that is closed. -/
def closeClass (k : Class) : Piece :=
  let ranges := if k.dash then k.ranges ++ [('-', '-')] else k.ranges
  .class k.negated (ranges.flatMap fun r => byteRanges r.1 r.2)

/-- The state after a character of a class. -/
def classCharacter (r : Reading) (k : Class) (c : Char) : Except Defect Reading :=
  if c = ']' && !k.first then .ok { r.push [closeClass k] with place := .plain }
  else if c = '-' && !k.first && !k.dash then
    .ok { r with place := .inClass { k with dash := true } }
  else return { r with place := .inClass (← addToClass k c) }

/-- What follows a `**`. -/
inductive After where
  | nothing
  | slash
  | groupEnd
  | other

/-- What follows a `**`, given the rest of the pattern. -/
def after (r : Reading) : List Char → After
  | [] => .nothing
  | c :: _ =>
    if c = '/' then .slash
    else if (c = ',' || c = '\x7d') && !r.groups.isEmpty then .groupEnd
    else .other

/-- Put a piece in the place of the slash before a `**`, unless a `**` already spans it. -/
def spanBack (r : Reading) (p : Piece) : Reading :=
  match r.current.getLast? with
  | some .leadingDirectories | some .trailingAnything => r
  | _ => { r with current := r.current.dropLast ++ [p] }

/-- The state after a `**`, and whether the slash after it belongs to it. -/
def doubleStar (r : Reading) (rest : List Char) : Reading × Bool :=
  if r.current.isEmpty then
    match r.after rest with
    | .nothing => (r.push [.leadingDirectories], false)
    | .slash => (r.push [.leadingDirectories], true)
    | _ => (r.push [.run, .run], false)
  else
    let afterSlash := r.before == some '/'
    let atGroupStart := !r.groups.isEmpty && (r.before == some ',' || r.before == some '\x7b')
    if !afterSlash && !atGroupStart then (r.push [.run, .run], false)
    else
      match r.after rest with
      | .slash => (r.spanBack .innerDirectories, true)
      | .nothing | .groupEnd => (r.spanBack .trailingAnything, false)
      | .other => (r.push [.run, .run], false)

/-- The state after a character that stands for itself or structures the pattern. -/
def plainCharacter (r : Reading) (c : Char) : Except Defect Reading :=
  if c = '?' then .ok (r.push [.any])
  else if c = '*' then .ok (r.push [.run])
  else if c = '\\' then .ok { r with place := .escape }
  else if c = '\x7b' then .ok { r with current := [], groups := ⟨[], r.current⟩ :: r.groups }
  else if c = '\x7d' then
    match r.groups with
    | [] => .error .unopenedGroup
    | g :: gs =>
      .ok { r with current := g.before ++ [.oneOf (g.alternatives ++ [r.current])], groups := gs }
  else if c = ',' then
    match r.groups with
    | [] => .ok (r.push (literal c))
    | g :: gs =>
      let groups := { g with alternatives := g.alternatives ++ [r.current] } :: gs
      .ok { r with current := [], groups }
  else .ok (r.push (literal c))

/-- The state after one character. -/
def character (r : Reading) (c : Char) : Except Defect Reading := do
  let s ←
    match r.place with
    | .inClass k => r.classCharacter k c
    | .escape => .ok { r.push (literal c) with place := .plain }
    | .plain => r.plainCharacter c
  return { s with before := some c }

/-- The pattern that was read, or what it lacks. -/
def finish (r : Reading) : Except Defect Pattern :=
  match r.place with
  | .inClass _ => .error .unclosedClass
  | .escape => .error .danglingEscape
  | .plain => if r.groups.isEmpty then .ok r.current else .error .unclosedGroup

/-- Whether the next character structures the pattern. -/
def isPlain (r : Reading) : Bool :=
  match r.place with
  | .plain => true
  | _ => false

end Reading

/-- Read the rest of a pattern. A `**` and the opening of a class take several characters at a time;
    `skip` says that the first character was taken with what came before it. -/
def readFrom (r : Reading) (skip : Bool) : List Char → Except Defect Pattern
  | [] => r.finish
  | c :: rest =>
    if skip then readFrom { r with before := some c } false rest
    else if r.isPlain && c = '[' then
      let negated := rest.head? == some '!' || rest.head? == some '^'
      readFrom { r with place := .inClass { negated }, before := some c } negated rest
    else if r.isPlain && c = '*' && rest.head? == some '*' then
      let (s, slash) := r.doubleStar rest.tail
      skipStar { s with before := some c } slash rest
    else
      match r.character c with
      | .ok s => readFrom s false rest
      | .error d => .error d
where
  /-- Read on after the second star of a `**`. -/
  skipStar (r : Reading) (slash : Bool) : List Char → Except Defect Pattern
    | [] => r.finish
    | c :: rest => readFrom { r with before := some c } slash rest

/-- The pattern that a text denotes. -/
def parse (text : String) : Except Defect Pattern := readFrom {} false text.toList

end Pattern

end Isolation.Glob
