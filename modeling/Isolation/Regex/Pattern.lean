import Isolation.Text.Charset

/-!
# Regular expressions

Patterns for texts, with groups and references to what a group stood for. A pattern is matched by
the list of all states that it may lead to (`Pattern.ways`): a state is a position with what the
groups stood for, and **of the states of one position the one found first is kept**, so that the
list is never longer than the text.

Of several ways the longest counts, and within it every part from left to right takes as much as it
can. A text is an array of characters, so that a position can be looked at in both directions.
-/

namespace Isolation.Regex

/-- A pattern. -/
inductive Pattern where
  | empty
  | char (c : Char)
  /-- Any one character. -/
  | any
  | among (negated : Bool) (members : List Text.Member)
  | seq (a b : Pattern)
  | alt (a b : Pattern)
  /-- A pattern so many times. -/
  | repeated (least : Nat) (most : Option Nat) (p : Pattern)
  | group (number : Nat) (p : Pattern)
  /-- What a group stood for, once more. -/
  | again (number : Nat)
  | lineStart
  | lineEnd
  | textStart
  | textEnd
  /-- A place where a word begins or ends, as far as that is asked for. -/
  | wordEdge (begins ends : Bool)
  /-- A place where no word begins or ends. -/
  | noEdge

/-- A text to be matched. -/
structure Subject where
  chars : Array Char
  /-- Whether letters stand for their other case too. -/
  caseless : Bool := false
  /-- Whether a line ends at every end of a line, and not only with the text. -/
  lines : Bool := false
  /-- Whether states of one position differ by what their groups stood for. -/
  exact : Bool := false

/-- What lies behind a part of a pattern. -/
structure Reached where
  position : Nat
  /-- What groups stood for, as the positions before and behind it; the last first. -/
  groups : List (Nat × Nat × Nat) := []
deriving DecidableEq, Repr

/-- The other case of a letter. -/
def otherCase (c : Char) : Char := if c.isUpper then c.toLower else c.toUpper

namespace Subject

/-- The subject of a text. -/
def ofText (text : String) : Subject := { chars := text.toList.toArray }

/-- The number of characters. -/
def size (s : Subject) : Nat := s.chars.size

/-- Whether a word has a character at a position. -/
def wordAt (s : Subject) (i : Nat) : Bool := (s.chars[i]?).any Text.isWordChar

/-- Whether a word has a character before a position. -/
def wordBefore (s : Subject) (i : Nat) : Bool := i != 0 && s.wordAt (i - 1)

/-- Whether a test holds of a character, in one of its cases if they do not matter. -/
def meets (s : Subject) (p : Char → Bool) (c : Char) : Bool :=
  p c || (s.caseless && p (otherCase c))

/-- The characters between two positions. -/
def between (s : Subject) (start stop : Nat) : List Char := (s.chars.extract start stop).toList

/-- The states of which none was reached before. -/
def distinct (s : Subject) (rs : List Reached) : List Reached :=
  match rs with
  | [] | [_] => rs
  | rs =>
    if s.exact then rs.eraseDups
    else
      let step (acc : Array Bool × List Reached) (r : Reached) : Array Bool × List Reached :=
        if acc.1.getD r.position true then acc
        else (acc.1.setIfInBounds r.position true, r :: acc.2)
      (rs.foldl step (Array.replicate (s.size + 1) false, [])).2.reverse

/-- Put a state at its place among states of descending position. -/
def insertFar (r : Reached) : List Reached → List Reached
  | [] => [r]
  | q :: qs => if r.position ≤ q.position then q :: insertFar r qs else r :: q :: qs

/-- The states with the furthest first. -/
def farFirst (rs : List Reached) : List Reached := rs.foldl (fun acc r => insertFar r acc) []

/-- The number of characters from a position on that meet a test, so many at most. -/
def run (s : Subject) (p : Char → Bool) : Nat → Nat → Nat
  | 0, _ => 0
  | n + 1, i =>
    match s.chars[i]? with
    | some c => if p c then s.run p n (i + 1) + 1 else 0
    | none => 0

end Subject

namespace Pattern

/-- The test of a pattern that stands for one character. -/
def single? (s : Subject) : Pattern → Option (Char → Bool)
  | char c => some (s.meets (· == c))
  | any => some fun _ => true
  | among negated members => some fun c => s.meets (Text.isAmong false members) c != negated
  | _ => none

/-- Whether a pattern refers to a group. -/
def refers : Pattern → Bool
  | again _ => true
  | seq a b | alt a b => a.refers || b.refers
  | repeated _ _ p | group _ p => p.refers
  | _ => false

/-- The states behind a step taken once more, from states that are new; those that do not get
    further are left out. -/
def further (s : Subject) (step : Reached → List Reached) :
    Nat → List Reached → List Reached → List Reached
  | 0, _, found => found
  | n + 1, fresh, found =>
    let next := fresh.flatMap fun r => (step r).filter fun q => r.position < q.position
    let next := s.distinct next
    let next := next.filter fun q =>
      if s.exact then !found.contains q else found.all fun f => f.position != q.position
    if next.isEmpty then found else further s step n next (found ++ next)

/-- The states behind a step taken so many times. -/
def times (s : Subject) (step : Reached → List Reached) : Nat → List Reached → List Reached
  | 0, rs => rs
  | n + 1, rs => times s step n (s.distinct (rs.flatMap step))

/-- The states that a pattern leads to. -/
def ways (s : Subject) : Pattern → Reached → List Reached
  | empty, r => [r]
  | seq a b, r => s.distinct ((ways s a r).flatMap (ways s b))
  | alt a b, r => Subject.farFirst (s.distinct (ways s a r ++ ways s b r))
  | repeated least most p, r =>
    match p.single? s with
    | some test =>
      let count := s.run test (most.getD s.size) r.position
      ((List.range (count + 1)).drop least).reverse.map fun k =>
        { r with position := r.position + k }
    | none =>
      let start := times s (ways s p) least [r]
      let bound := match most with
        | some m => m - least
        | none => s.size + 1
      Subject.farFirst (further s (ways s p) bound start start)
  | group n p, r =>
    (ways s p r).map fun q => { q with groups := (n, r.position, q.position) :: q.groups }
  | again n, r =>
    match r.groups.lookup n with
    | none => []
    | some (start, stop) =>
      let there := s.between start stop
      let here := s.between r.position (r.position + (stop - start))
      let same := there.length == here.length
        && (there.zip here).all fun p => s.meets (· == p.1) p.2
      if same then [{ r with position := r.position + (stop - start) }] else []
  | lineStart, r =>
    let i := r.position
    if i = 0 || (s.lines && s.chars[i - 1]? == some '\n') then [r] else []
  | lineEnd, r =>
    let i := r.position
    if i = s.size || (s.lines && s.chars[i]? == some '\n') then [r] else []
  | textStart, r => if r.position = 0 then [r] else []
  | textEnd, r => if r.position = s.size then [r] else []
  | wordEdge begins ends, r =>
    let before := s.wordBefore r.position
    let behind := s.wordAt r.position
    if (begins && !before && behind) || (ends && before && !behind) then [r] else []
  | noEdge, r => if s.wordBefore r.position == s.wordAt r.position then [r] else []
  | p, r =>
    match p.single? s, s.chars[r.position]? with
    | some test, some c => if test c then [{ r with position := r.position + 1 }] else []
    | _, _ => []

end Pattern

/-- A place where a pattern was found. -/
structure Found where
  start : Nat
  stop : Nat
  groups : List (Nat × Nat × Nat)

/-- What a group stood for; nothing if it was passed by. -/
def Found.group (f : Found) (s : Subject) (n : Nat) : List Char :=
  match n, f.groups.lookup n with
  | 0, _ => s.between f.start f.stop
  | _, some (start, stop) => s.between start stop
  | _, none => []

/-- The furthest of some states that a test admits. -/
def furthest (admits : Nat → Bool) (rs : List Reached) : Option Reached :=
  (rs.filter fun r => admits r.position).foldl
    (fun best r =>
      match best with
      | some b => if b.position < r.position then some r else best
      | none => some r) none

/-- The first place from a position on where a pattern is found, at most so many being tried; the
    test says which places count. -/
def findFrom (s : Subject) (p : Pattern) (admits : Nat → Nat → Bool) : Nat → Nat → Option Found
  | 0, _ => none
  | n + 1, i =>
    match furthest (admits i) (p.ways s ⟨i, []⟩) with
    | some r => some ⟨i, r.position, r.groups⟩
    | none => if i < s.size then findFrom s p admits n (i + 1) else none

/-- The first place from a position on where a pattern is found. -/
def find? (s : Subject) (p : Pattern) (start : Nat := 0) : Option Found :=
  findFrom s p (fun _ _ => true) (s.size + 1 - start) start

/-- The first place where a pattern is found and is a word of its own. -/
def findWord? (s : Subject) (p : Pattern) (start : Nat := 0) : Option Found :=
  findFrom s p (fun i j => !s.wordBefore i && !s.wordAt j) (s.size + 1 - start) start

/-- Whether a pattern stands for a whole text. -/
def standsFor (s : Subject) (p : Pattern) : Bool :=
  (p.ways s ⟨0, []⟩).any fun r => r.position == s.size

end Isolation.Regex
