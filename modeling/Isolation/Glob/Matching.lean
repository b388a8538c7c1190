import Isolation.Glob.Pattern

/-!
# Matching paths

Whether a pattern stands for the whole of a path, byte by byte. Matching goes by marks: a row of
marks says before which bytes of the path, and whether at its end, a piece may begin, and every
piece turns the row into the one for the piece behind it. Each step passes over the path once, so
that a pattern with many stars costs no more than its length times the length of the path.

Some patterns go by the name of the file that a path leads to: a name behind `**/`, and an ending
that begins with a point. **A path that ends in `..` leads to no file of that name**, so these
patterns do not stand for it, whatever their pieces say (`Pattern.goesByName`).
-/

namespace Isolation.Glob

/-! ## 1. Rows of marks -/

/-- A mark for each place of a path: before each of its bytes, and at its end. -/
abbrev Marks := List Bool

/-- The places behind one byte of a kind at the marked places. -/
def behindByte (p : UInt8 → Bool) (path : List UInt8) (ms : Marks) : Marks :=
  false :: List.zipWith (fun b m => m && p b) path ms

/-- The marked places and all places behind them. -/
def onwards (seen : Bool) : Marks → Marks
  | [] => []
  | m :: ms => (seen || m) :: onwards (seen || m) ms

/-- The places marked in one of two rows. -/
def either (ms ns : Marks) : Marks := List.zipWith (· || ·) ms ns

/-- The places behind a slash at the marked places. -/
def behindSlash (path : List UInt8) (ms : Marks) : Marks := behindByte (· == 47) path ms

/-- The places behind a slash that lies somewhere behind a marked place. -/
def behindLaterSlash (path : List UInt8) (ms : Marks) : Marks :=
  behindSlash path (onwards false ms)

mutual

/-- Whether a piece stands for nothing: a group without an alternative that stands for something. -/
def Piece.isVoid : Piece → Bool
  | .oneOf alternatives => allVoid alternatives
  | _ => false

/-- Whether every alternative stands for nothing. -/
def allVoid : List (List Piece) → Bool
  | [] => true
  | a :: as => isVoidSequence a && allVoid as

/-- Whether every piece of a sequence stands for nothing. -/
def isVoidSequence : List Piece → Bool
  | [] => true
  | p :: ps => p.isVoid && isVoidSequence ps

end

mutual

/-- The places behind a piece at the marked places. -/
def Piece.behind (path : List UInt8) (ms : Marks) : Piece → Marks
  | .byte b => behindByte (· == b) path ms
  | .any => behindByte (fun _ => true) path ms
  | .run => onwards false ms
  | .class negated ranges =>
    behindByte (fun b => (ranges.any fun r => r.1 ≤ b && b ≤ r.2) != negated) path ms
  | .leadingDirectories => either ms (behindLaterSlash path ms)
  | .innerDirectories =>
    let slashed := behindSlash path ms
    either slashed (behindLaterSlash path slashed)
  | .trailingAnything => onwards false (behindSlash path ms)
  | .oneOf alternatives =>
    if allVoid alternatives then ms else behindOne path ms alternatives

/-- The places behind one of some alternatives; those that stand for nothing are passed over. -/
def behindOne (path : List UInt8) (ms : Marks) : List (List Piece) → Marks
  | [] => ms.map fun _ => false
  | a :: as =>
    let others := behindOne path ms as
    if isVoidSequence a then others else either (behindAll path ms a) others

/-- The places behind a sequence of pieces at the marked places. -/
def behindAll (path : List UInt8) (ms : Marks) : List Piece → Marks
  | [] => ms
  | p :: ps => behindAll path (p.behind path ms) ps

end

/-! ## 2. Names of files -/

/-- The name behind the last slash of a path. -/
def lastName (path : List UInt8) : List UInt8 := (path.reverse.takeWhile (· != 47)).reverse

/-- Whether a path ends in the name `..`, and so leads to no file of that name. -/
def endsInParent (path : List UInt8) : Bool := lastName path == [46, 46]

/-- Whether all pieces are given bytes. -/
def allBytes (ps : List Piece) : Bool :=
  ps.all fun
    | .byte _ => true
    | _ => false

/-- Whether a sequence of pieces ends in the given byte. -/
def endsIn (b : UInt8) (ps : List Piece) : Bool :=
  match ps.getLast? with
  | some (.byte c) => c == b
  | _ => false

/-- Whether a sequence of given bytes holds a slash. -/
def holdsSlash (ps : List Piece) : Bool :=
  ps.any fun
    | .byte b => b == 47
    | _ => false

/-- Whether a pattern goes by the name of a file: it is a plain name behind `**/`, or it ends in a
    point and is more than a given ending. -/
def Pattern.goesByName (p : Pattern) : Bool :=
  match p with
  | .leadingDirectories :: .run :: ps => if allBytes ps then ps.length == 1 && endsIn 46 ps
    else endsIn 46 ps
  | .leadingDirectories :: ps => if allBytes ps then !holdsSlash ps else endsIn 46 ps
  | .run :: ps => if allBytes ps then ps.length == 1 && endsIn 46 ps else endsIn 46 ps
  | ps => !allBytes ps && endsIn 46 ps

/-! ## 3. Matching -/

/-- Whether the pieces of a pattern stand for a whole path. -/
def Pattern.spans (p : Pattern) (path : List UInt8) : Bool :=
  match p with
  | [.leadingDirectories] => true
  | _ => (behindAll path (true :: path.map fun _ => false) p).getLastD false

/-- Whether a pattern stands for a path, given by its bytes. -/
def Pattern.matchesBytes (p : Pattern) (path : List UInt8) : Bool :=
  p.spans path && !(p.goesByName && endsInParent path)

/-- Whether a pattern stands for a path. -/
def Pattern.matches (p : Pattern) (path : String) : Bool := p.matchesBytes path.toUTF8.toList

/-! ## 4. Sets of patterns -/

/-- The patterns of some texts, or the first text that is none, with what it lacks. -/
def parseAll : List String → Except (String × Defect) (List Pattern)
  | [] => .ok []
  | t :: ts =>
    match Pattern.parse t with
    | .error d => .error (t, d)
    | .ok p => (parseAll ts).map (p :: ·)

/-- Whether one of some patterns stands for a path. -/
def anyMatches (ps : List Pattern) (path : String) : Bool := ps.any fun p => p.matches path

end Isolation.Glob
