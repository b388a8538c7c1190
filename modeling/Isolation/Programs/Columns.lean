import Isolation.Programs.Texts

/-!
# Columns

The program `cut`: it keeps some bytes or fields of every line.
-/

namespace Isolation.Programs.Columns

open Machine
open Files (Refusal)

/-! ## 1. Lists of ranges -/

/-- A range of columns, counted from one. -/
structure Range where
  low : Nat
  high : Option Nat
deriving DecidableEq, Repr

/-- Whether a column belongs to a range. -/
def Range.holds (r : Range) (n : Nat) : Bool := r.low ≤ n && r.high.all (n ≤ ·)

/-- The words for what a list is about. -/
structure Wording where
  numbered : String
  value : String
  range : String
  large : String

/-- The words for fields. -/
def fieldWords : Wording :=
  ⟨"fields are numbered from 1", "invalid field value ", "invalid field range", "field number "⟩

/-- The words for bytes. -/
def byteWords : Wording :=
  ⟨"byte/character positions are numbered from 1", "invalid byte/character position ",
    "invalid byte or character range", "byte/character offset "⟩

/-- Read a range: a number, or two with a dash between them, of which one may be left out. -/
def range (w : Wording) (text : String) : Except String Range := do
  let number (cs : List Char) : Except String Nat :=
    let digits := String.ofList (cs.takeWhile Char.isDigit)
    match cs.dropWhile Char.isDigit, natural? digits with
    | [], some n =>
      if n < Nat.pow 2 64 - 1 then .ok n else .error (w.large ++ quoted digits ++ " is too large")
    | rest, _ => .error (w.value ++ quoted (String.ofList rest))
  match Text.fields (· == '-') text.toList with
  | [[], []] => .error "invalid range with no endpoint: -"
  | [[]] => .error w.numbered
  | [low] =>
    let n ← number low
    if n = 0 then .error w.numbered
    return ⟨n, some n⟩
  | [low, high] =>
    let a ← if low.isEmpty then pure 1 else number low
    if a = 0 then .error w.numbered
    if high.isEmpty then return ⟨a, none⟩
    let b ← number high
    if b < a then .error "invalid decreasing range"
    return ⟨a, some b⟩
  | _ => .error w.range

/-- Read a list of ranges, divided by commas or blanks. -/
def ranges (w : Wording) (text : String) : Except String (List Range) :=
  (Text.fields (fun c => c == ',' || c == ' ' || c == '\t') text.toList).mapM
    fun r => range w (String.ofList r)

/-! ## 2. Keeping some columns -/

/-- How lines are cut. -/
structure Cutting where
  ranges : List Range
  /-- What stands between fields, if fields are meant. -/
  delimiter : Option Char
  /-- What is put between them. -/
  between : Option String := none
  complement : Bool := false
  /-- Lines without a delimiter are left out. -/
  divided : Bool := false

/-- Whether a column is kept. -/
def Cutting.keeps (c : Cutting) (n : Nat) : Bool := (c.ranges.any (·.holds n)) != c.complement

/-- What is kept of some numbered parts. Where parts that are kept do not follow one another, or a
    range begins, something may stand between them. -/
def Cutting.keptBytes (c : Cutting) (cs : List Char) : String :=
  let starts (n : Nat) : Bool :=
    if c.complement then !c.keeps (n - 1)
    else c.ranges.any (·.low == n) && !c.ranges.any fun r => r.low < n && r.holds n
  let step (acc : List String × Nat) (x : Char) : List String × Nat :=
    let n := acc.2
    if !c.keeps n then (acc.1, n + 1)
    else
      let gap := match c.between with
        | some b => if starts n && !acc.1.isEmpty then b else ""
        | none => ""
      ((gap ++ String.singleton x) :: acc.1, n + 1)
  String.join (cs.foldl step ([], 1)).1.reverse

/-- A line as it is cut, unless it is left out. -/
def Cutting.line? (c : Cutting) (line : String) : Option String :=
  match c.delimiter with
  | none => some (c.keptBytes line.toList)
  | some d =>
    if !line.toList.contains d then if c.divided then none else some line
    else
      let fields := (Text.fields (· == d) line.toList).map String.ofList
      let kept := fields.zipIdx.filterMap fun (f, i) => if c.keeps (i + 1) then some f else none
      some (Text.joined (c.between.getD (String.singleton d)) kept)

/-- Keep some bytes or fields of every line. -/
def cut : Program := fun args => do
  let g := Grammar.of "b:c:d:f:nszCO:"
    [("bytes", 'b'), ("characters", 'c'), ("delimiter", 'd'), ("fields", 'f'),
      ("only-delimited", 's'), ("complement", 'C'), ("output-delimiter", 'O'),
      ("zero-terminated", 'z')]
  let p ← options g args
  let lists := p.options.filter fun o => ['b', 'c', 'f'].contains o.1
  let delimiter : Option Char ←
    match p.last? 'd' with
    | none => pure none
    | some d =>
      match d.toList with
      | [] => pure (some (Char.ofNat 0))
      | [c] => pure (some c)
      | _ => usage 1 "the delimiter must be a single character"
  match lists with
  | [] => usage 1 "you must specify a list of bytes, characters, or fields"
  | _ :: _ :: _ => usage 1 "only one list may be specified"
  | [(kind, list)] =>
    let byField := kind == 'f'
    if !byField && delimiter.isSome then
      usage 1 "an input delimiter may be specified only when operating on fields"
    if !byField && p.has 's' then
      usage 1 "suppressing non-delimited lines makes sense\n\tonly when operating on fields"
    match ranges (if byField then fieldWords else byteWords) list with
    | .error e => usage 1 e
    | .ok rs =>
      let c : Cutting :=
        { ranges := rs
          delimiter := if byField then some (delimiter.getD '\t') else none
          between := p.last? 'O'
          complement := p.has 'C'
          divided := p.has 's' }
      eachText (fun path r => Act.complainOf (shown path) r)
        (fun text => Act.print (unlines ((linesOf text).filterMap c.line?))) p.operands

end Isolation.Programs.Columns
