import Isolation.Programs.Texts

/-!
# Sorting lines

The program `sort`, and `uniq`, which expects sorted lines.

Lines are compared by keys. A key is a part of the line with a way of comparing; where all keys
agree, the bytes of the lines decide, unless that is excluded.
-/

namespace Isolation.Programs.Sorting

open Machine
open Files (Refusal)

/-! ## 1. Keys -/

/-- How keys are compared. -/
inductive Order where
  | bytes
  | numeric
  /-- As floating-point numbers. -/
  | general
  /-- As numbers with units. -/
  | human
  | month
  | version
deriving DecidableEq, Repr

/-- A part of lines with a way of comparing. -/
structure Key where
  /-- The field in which it begins, and the character. -/
  field : Nat := 0
  char : Nat := 0
  /-- The field in which it ends, and the number of its characters that belong to it; none for all
      of them. -/
  stop : Option (Nat × Nat) := none
  order : Order := .bytes
  reversed : Bool := false
  /-- Blanks at the front are passed over; at the beginning and at the end of the key. -/
  blanksBefore : Bool := false
  blanksBehind : Bool := false
  /-- Letters count as upper case. -/
  folded : Bool := false
  /-- Only blanks, letters and digits count. -/
  dictionary : Bool := false
  /-- Only what can be printed counts. -/
  printable : Bool := false
deriving DecidableEq, Repr

/-- Whether a key says nothing about comparing. -/
def Key.isBare (k : Key) : Bool :=
  k.order = .bytes && !(k.reversed || k.blanksBefore || k.blanksBehind || k.folded ||
    k.dictionary || k.printable)

/-- Whether a character is a blank. -/
def isBlank (c : Char) : Bool := c == ' ' || c == '\t' || c == '\n'

/-- What follows so many fields. -/
def behindFields (tab : Option Char) : Nat → List Char → List Char
  | 0, cs => cs
  | _, [] => []
  | n + 1, cs =>
    match tab with
    | some t => behindFields tab n ((cs.dropWhile (· != t)).drop 1)
    | none => behindFields tab n ((cs.dropWhile isBlank).dropWhile (!isBlank ·))

/-- What follows so many fields, the separator behind the last being left. -/
def behindLast (tab : Option Char) (n : Nat) (cs : List Char) : List Char :=
  match tab, n with
  | some t, n + 1 => (behindFields tab n cs).dropWhile (· != t)
  | _, n => behindFields tab n cs

/-- The part of a line that a key means. -/
def Key.part (k : Key) (tab : Option Char) (line : List Char) : List Char :=
  let start := behindFields tab k.field line
  let start := if k.blanksBefore then start.dropWhile isBlank else start
  let start := start.drop k.char
  let rest :=
    match k.stop with
    | none => []
    | some (field, 0) => behindLast tab (field + 1) line
    | some (field, count) =>
      let cs := behindFields tab field line
      let cs := if k.blanksBehind then cs.dropWhile isBlank else cs
      cs.drop count
  start.take (start.length - rest.length)

/-! ## 2. Comparing -/

/-- Compare texts by their bytes. -/
def compareChars : List Char → List Char → Ordering
  | [], [] => .eq
  | [], _ :: _ => .lt
  | _ :: _, [] => .gt
  | a :: r, b :: s => if a = b then compareChars r s else if a < b then .lt else .gt

/-- A number as its sign, the digits before the point and those behind it. -/
def numeral (cs : List Char) : Bool × Nat × List Char :=
  let cs := cs.dropWhile isBlank
  let negative := cs.head? == some '-'
  let cs := if negative then cs.drop 1 else cs
  let whole := cs.takeWhile Char.isDigit
  let rest := cs.drop whole.length
  let fraction :=
    match rest with
    | '.' :: r => r.takeWhile Char.isDigit
    | _ => []
  let fraction := (fraction.reverse.dropWhile (· == '0')).reverse
  (negative, (natural? (String.ofList whole)).getD 0, fraction)

/-- Compare numbers. -/
def compareNumerals (a b : Bool × Nat × List Char) : Ordering :=
  let size (x y : Bool × Nat × List Char) : Ordering :=
    (compare x.2.1 y.2.1).then (compareChars x.2.2 y.2.2)
  let negative (x : Bool × Nat × List Char) : Bool := x.1 && (x.2.1 != 0 || !x.2.2.isEmpty)
  match negative a, negative b with
  | false, false => size a b
  | true, true => size b a
  | true, false => .lt
  | false, true => .gt

/-- The rank of the unit behind a number. -/
def unitRank (cs : List Char) : Int :=
  let (negative, whole, fraction) := numeral cs
  let rest := ((cs.dropWhile isBlank).dropWhile fun c => c == '-').dropWhile fun c =>
    c.isDigit || c == '.'
  let rank : Nat :=
    match rest.head? with
    | some 'k' => 1
    | some c => (("KMGTPEZYRQ".toList.findIdx? (· == c)).map (· + 1)).getD 0
    | none => 0
  if whole = 0 && fraction.isEmpty then 0 else if negative then -(rank : Int) else rank

/-- The number of a month; zero for what is none. -/
def monthNumber (cs : List Char) : Nat :=
  let name := String.ofList (((cs.dropWhile isBlank).take 3).map Char.toUpper)
  ((["JAN", "FEB", "MAR", "APR", "MAY", "JUN", "JUL", "AUG", "SEP", "OCT", "NOV", "DEC"].findIdx?
    (· == name)).map (· + 1)).getD 0

/-- The place of a character in versions: the sign that comes before the end, the end, letters, and
    everything else. -/
def versionRank (c : Option Char) : Nat :=
  match c with
  | some '~' => 0
  | none => 1
  | some c => if c.isAlpha then c.toNat + 1 else c.toNat + 257

/-- Compare versions: parts without digits by their characters, parts of digits by their value. -/
def compareVersions : Nat → List Char → List Char → Ordering
  | 0, a, b => compareChars a b
  | n + 1, a, b =>
    if a.isEmpty && b.isEmpty then .eq
    else
      let first (cs : List Char) : Option Char := cs.head?.filter (!·.isDigit)
      match first a, first b with
      | none, none =>
        let x := a.takeWhile Char.isDigit
        let y := b.takeWhile Char.isDigit
        let value (ds : List Char) : Nat := (natural? (String.ofList ds)).getD 0
        (compare (value x) (value y)).then
          (compareVersions n (a.drop x.length) (b.drop y.length))
      | x, y =>
        match compare (versionRank x) (versionRank y) with
        | .eq => compareVersions n (a.drop 1) (b.drop 1)
        | o => o

/-- The value of a text as a floating-point number: what is none comes before all that are. -/
def generalRank (cs : List Char) : Bool × Bool × Nat × List Char × Int :=
  let cs := cs.dropWhile Text.isSpace
  let (negative, whole, fraction) := numeral cs
  let rest := (cs.dropWhile fun c => c == '-').dropWhile fun c => c.isDigit || c == '.'
  let digits := (cs.dropWhile fun c => c == '-' || c == '.').head?.any Char.isDigit
  let exponent : Int :=
    match rest with
    | c :: '-' :: r =>
      if c == 'e' || c == 'E' then
        -((natural? (String.ofList (r.takeWhile Char.isDigit))).getD 0 : Nat)
      else 0
    | c :: r =>
      let r := if r.head? == some '+' then r.drop 1 else r
      if c == 'e' || c == 'E' then (natural? (String.ofList (r.takeWhile Char.isDigit))).getD 0
      else 0
    | [] => 0
  (digits, negative, whole, fraction, exponent)

/-- Compare texts as floating-point numbers. -/
def compareGeneral (a b : List Char) : Ordering :=
  let (isA, negA, wholeA, fracA, expA) := generalRank a
  let (isB, negB, wholeB, fracB, expB) := generalRank b
  match isA, isB with
  | false, false => .eq
  | false, true => .lt
  | true, false => .gt
  | true, true =>
    -- Both as whole numbers of one unit.
    let depth := max fracA.length fracB.length
    let low := min expA expB
    let value (neg : Bool) (whole : Nat) (frac : List Char) (exponent : Int) : Int :=
      let digits := frac ++ List.replicate (depth - frac.length) '0'
      let n := digits.foldl (fun n c => 10 * n + (c.toNat - '0'.toNat)) whole
      let n := n * Nat.pow 10 (min (exponent - low).toNat 5000)
      if neg then -(n : Int) else n
    compare (value negA wholeA fracA expA) (value negB wholeB fracB expB)

/-- Compare lines by a key. -/
def Key.compare (k : Key) (tab : Option Char) (a b : List Char) : Ordering :=
  let x := k.part tab a
  let y := k.part tab b
  let clean (cs : List Char) : List Char :=
    let cs := if k.dictionary then cs.filter fun c => isBlank c || c.isAlphanum else cs
    let cs := if k.printable then cs.filter Text.isPrintable else cs
    if k.folded then cs.map Char.toUpper else cs
  let o :=
    match k.order with
    | .bytes => compareChars (clean x) (clean y)
    | .numeric => compareNumerals (numeral x) (numeral y)
    | .general => compareGeneral x y
    | .human =>
      (Ord.compare (unitRank x) (unitRank y)).then (compareNumerals (numeral x) (numeral y))
    | .month => Ord.compare (monthNumber x) (monthNumber y)
    | .version => compareVersions (x.length + y.length + 1) x y
  if k.reversed then o.swap else o

/-- How lines are sorted. -/
structure Plan where
  keys : List Key
  tab : Option Char := none
  /-- Lines that agree in their keys stay in order. -/
  stable : Bool := false
  /-- Of lines that agree in their keys one is kept. -/
  unique : Bool := false
  reversed : Bool := false

/-- Compare lines by all keys. -/
def Plan.compareKeys (p : Plan) (a b : List Char) : Ordering :=
  p.keys.foldl (fun o k => o.then (k.compare p.tab a b)) .eq

/-- Compare lines. -/
def Plan.compare (p : Plan) (a b : List Char) : Ordering :=
  match p.compareKeys a b with
  | .eq =>
    if p.stable || p.unique then .eq
    else if p.reversed then (compareChars a b).swap
    else compareChars a b
  | o => o

/-- Lines without those that agree with the one before. -/
def Plan.thinned (p : Plan) : List (List Char) → List (List Char)
  | a :: b :: r =>
    if p.compareKeys a b = .eq then p.thinned (a :: r) else a :: p.thinned (b :: r)
  | ls => ls

/-- Two sorted rows of lines as one. -/
def Plan.merged (p : Plan) : List (List Char) → List (List Char) → List (List Char)
  | [], b => b
  | a, [] => a
  | x :: a, y :: b =>
    if p.compare x y = .gt then y :: p.merged (x :: a) b else x :: p.merged a (y :: b)

/-- Lines in order. -/
def Plan.sorted (p : Plan) (ls : List (List Char)) : List (List Char) :=
  let ls := ls.mergeSort fun a b => p.compare a b != .gt
  if p.unique then p.thinned ls else ls

/-- The first line that is out of order, with its number. -/
def Plan.disorder? (p : Plan) : Nat → List (List Char) → Option (Nat × List Char)
  | n, a :: b :: r =>
    let o := p.compare a b
    if o = .gt || (p.unique && o = .eq) then some (n + 1, b) else p.disorder? (n + 1) (b :: r)
  | _, _ => none

/-! ## 3. Keys as they are written -/

/-- The key with what a letter asks for, unless the letter means nothing. -/
def Key.with? (k : Key) (atEnd : Bool) : Char → Option Key
  | 'b' => some (if atEnd then { k with blanksBehind := true } else { k with blanksBefore := true })
  | 'd' => some { k with dictionary := true }
  | 'f' => some { k with folded := true }
  | 'g' => some { k with order := .general }
  | 'h' => some { k with order := .human }
  | 'i' => some { k with printable := true }
  | 'M' => some { k with order := .month }
  | 'n' => some { k with order := .numeric }
  | 'r' => some { k with reversed := true }
  | 'V' => some { k with order := .version }
  | 'R' => some k
  | _ => none

/-- The key with what the letters at the front ask for, and what follows them. -/
def Key.withAll (k : Key) (atEnd : Bool) : List Char → Key × List Char
  | [] => (k, [])
  | c :: r =>
    match k.with? atEnd c with
    | some k => k.withAll atEnd r
    | none => (k, c :: r)

/-- Read a key. -/
def readKey (spec : String) : Except String Key := do
  let wrong {α : Type} (message : String) : Except String α :=
    .error (message ++ ": invalid field specification " ++ quoted spec)
  let number (message : String) (cs : List Char) : Except String (Nat × List Char) :=
    let ds := cs.takeWhile Char.isDigit
    match natural? (String.ofList ds) with
    | some n => .ok (n, cs.drop ds.length)
    | none => .error (message ++ ": invalid count at start of " ++ quoted (String.ofList cs))
  let offset (cs : List Char) : Except String (Option Nat × List Char) :=
    match cs with
    | '.' :: r => do
      let (n, r) ← number "invalid number after '.'" r
      return (some n, r)
    | cs => .ok (none, cs)
  let (field, cs) ← number "invalid number at field start" spec.toList
  if field = 0 then wrong "field number is zero"
  let (char, cs) ← offset cs
  if char == some 0 then wrong "character offset is zero"
  let k : Key := { field := field - 1, char := char.getD 1 - 1 }
  let (k, cs) := k.withAll false cs
  match cs with
  | [] => return k
  | ',' :: r =>
    let (field, cs) ← number "invalid number after ','" r
    if field = 0 then wrong "field number is zero"
    let (char, cs) ← offset cs
    let (k, cs) := ({ k with stop := some (field - 1, char.getD 0) } : Key).withAll true cs
    if cs.isEmpty then return k else wrong "stray character in field spec"
  | _ => wrong "stray character in field spec"

/-! ## 4. The program -/

/-- Sort the lines of all operands. -/
def sort : Program := fun args => do
  let g := Grammar.of "bcCdfghik:mMno:rRsS:t:T:uVz"
    [("ignore-leading-blanks", 'b'), ("check", 'c'), ("dictionary-order", 'd'),
      ("ignore-case", 'f'), ("general-numeric-sort", 'g'), ("human-numeric-sort", 'h'),
      ("ignore-nonprinting", 'i'), ("key", 'k'), ("merge", 'm'), ("month-sort", 'M'),
      ("numeric-sort", 'n'), ("output", 'o'), ("reverse", 'r'), ("stable", 's'),
      ("field-separator", 't'), ("unique", 'u'), ("version-sort", 'V'), ("zero-terminated", 'z')]
  let p ← options g args 2
  let letters := (p.options.map Prod.fst).filter "bdfghiMnrRV".toList.contains
  let whole : Key := (({} : Key).withAll false letters).1
  let whole := if p.has 'b' then { whole with blanksBehind := true } else whole
  let kinds := letters.filter fun c => "dghiMnV".toList.contains c
  let orders := (kinds.map fun c => if c == 'i' then 'd' else c).eraseDups
  if 1 < orders.length then
    let marks := ("dfghiMnRV".toList.filter letters.contains)
    Act.fail 2 ("options '-" ++ String.ofList marks ++ "' are incompatible")
  let tab : Option Char ←
    match p.last? 't' with
    | none => pure none
    | some "\\0" => pure (some (Char.ofNat 0))
    | some t =>
      match t.toList with
      | [] => Act.fail 2 "empty tab"
      | [c] => pure (some c)
      | _ => Act.fail 2 ("multi-character tab " ++ quoted t)
  let read (spec : String) : Act Key :=
    match readKey spec with
    | .error e => Act.fail 2 e
    | .ok k =>
      return if k.isBare then { whole with field := k.field, char := k.char, stop := k.stop } else k
  let keys ← (p.all 'k').mapM read
  let plan : Plan :=
    { keys := if keys.isEmpty then [whole] else keys
      tab
      stable := p.has 's'
      unique := p.has 'u'
      reversed := whole.reversed }
  let operands := if p.operands.isEmpty then ["-"] else p.operands
  let ending := if p.has 'z' then Char.ofNat 0 else '\n'
  let checks := p.has 'c' || p.has 'C'
  match checks, operands with
  | true, _ :: extra :: _ =>
    Act.fail 2 ("extra operand " ++ quoted extra ++ " not allowed with -" ++
      (if p.has 'c' then "c" else "C"))
  | _, _ => pure ()
  let readLines (path : String) : Act (List (List Char)) := do
    match ← Act.readOperand path with
    | .error .isDirectory => Act.fail 2 ("read failed: " ++ shown path ++ ": Is a directory")
    | .error r => Act.fail 2 ("cannot read: " ++ shown path ++ ": " ++ r.text)
    | .ok text =>
      let parts := Text.fields (· == ending) text.toList
      return if parts.getLast? == some [] then parts.dropLast else parts
  let inputs ← operands.mapM readLines
  if checks then
    match plan.disorder? 1 inputs.flatten with
    | none => return 0
    | some (n, line) =>
      if p.has 'c' then
        Act.complain (Text.joined "" operands ++ ":" ++ toString n ++ ": disorder: " ++
          String.ofList line)
      return 1
  let ls :=
    if p.has 'm' then
      let ls := inputs.foldl plan.merged []
      if plan.unique then plan.thinned ls else ls
    else plan.sorted inputs.flatten
  let text := String.join (ls.map fun l => String.ofList (l ++ [ending]))
  match p.last? 'o' with
  | none => Act.print text
  | some path =>
    match ← Act.writeFile path text with
    | .ok () => pure ()
    | .error r => Act.fail 2 ("open failed: " ++ shown path ++ ": " ++ r.text)
  return 0

/-! ## 5. Lines that follow one another -/

/-- Rows of lines that follow one another and agree. -/
def groups (same : String → String → Bool) : List String → List (List String)
  | [] => []
  | l :: ls =>
    match groups same ls with
    | (m :: ms) :: gs => if same l m then (l :: m :: ms) :: gs else [l] :: (m :: ms) :: gs
    | gs => [l] :: gs

/-- Write lines that follow one another and agree once. -/
def uniq : Program := fun args => do
  let g := Grammar.of "cdDf:is:uw:z"
    [("count", 'c'), ("repeated", 'd'), ("skip-fields", 'f'), ("ignore-case", 'i'),
      ("skip-chars", 's'), ("unique", 'u'), ("check-chars", 'w'), ("all-repeated", 'D')]
  let p ← options g args
  let number (c : Char) (what : String) : Act (Option Nat) :=
    match p.last? c with
    | none => return none
    | some text =>
      match quantity? text with
      | some n => return some n
      | none => Act.fail 1 (shown text ++ ": invalid number of " ++ what)
  let fields := (← number 'f' "fields to skip").getD 0
  let chars := (← number 's' "bytes to skip").getD 0
  let width ← number 'w' "bytes to compare"
  match p.operands with
  | _ :: _ :: c :: _ => extraOperand c
  | _ => pure ()
  let key (line : String) : List Char :=
    let cs := (behindFields none fields line.toList).drop chars
    let cs := match width with
      | some w => cs.take w
      | none => cs
    if p.has 'i' then cs.map Char.toLower else cs
  let source := (p.operands.head?).getD "-"
  match ← Act.readOperand source with
  | .error .isDirectory => Act.fail 1 ("error reading " ++ quoted source ++ ": Is a directory")
  | .error r => Act.fail 1 (shown source ++ ": " ++ r.text)
  | .ok text =>
    let gs := groups (fun a b => key a == key b) (linesOf text)
    let write (g : List String) : List String :=
      let n := g.length
      let kept := if p.has 'd' || p.has 'D' then 1 < n else if p.has 'u' then n = 1 else true
      let kept := kept && !(p.has 'd' && p.has 'u')
      let label := if p.has 'c' then Texts.atRight 7 (toString n) ++ " " else ""
      if !kept then [] else if p.has 'D' then g else (g.take 1).map (label ++ ·)
    let out := unlines (gs.flatMap write)
    match p.operands[1]? with
    | none => Act.print out
    | some "-" => Act.print out
    | some path =>
      match ← Act.writeFile path out with
      | .ok () => pure ()
      | .error r => Act.fail 1 (shown path ++ ": " ++ r.text)
    return 0

end Isolation.Programs.Sorting
